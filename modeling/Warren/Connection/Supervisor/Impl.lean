import Warren.Base.Chan

/-!
The per-socket supervisor (`managedConn.supervisor` in `connection.go`) with `reconnectRaw`, the
retry loop behind it (`internal/reconnect/loop.go`) and the outcomes of `runBarrier`. When a socket
is lost, the client sends an error to the channel that `NotifyClose` registered and closes both
notify channels, under the lock that the registrations take.
-/

namespace Supervisor

inductive Socket where
  | connected
  | failing
  | gone
  deriving DecidableEq, Repr

-- `dialing n` and `backoff n` are inside the retry loop, after `n` failed attempts
inductive Pc where
  | top
  | notifyBlocked
  | notifyClose
  | watch
  | reconnect
  | dialing (attempt : Nat)
  | backoff (attempt : Nat)
  | dialed (connected : Bool)
  | barrier
  | exited
  deriving DecidableEq, Repr

structure State where
  maxRetries : Nat
  bootDegraded : Bool
  ctxDone : Bool
  raw : Option Socket
  blockedCh : Option (Chan Bool 2)
  closeCh : Option (Chan Unit 1)
  forceReconnectCh : Chan Unit 1
  blockedSince : Bool
  blocked : Bool
  reconnecting : Bool
  lastConnected : Option Bool
  pc : Pc
  deriving DecidableEq, Repr

inductive Action where
  | readRaw
  | notifyBlocked
  | notifyClose
  | watchCtx
  | watchBlocked
  | watchClose
  | watchForce
  | enterReconnect
  | dialOk
  | dialErr
  | backoffTimer
  | backoffCtx
  | reconnectRawReturn
  | barrierDone
  | barrierShutdown
  | barrierCap
  | cancel
  | forceReconnect
  | brokerBlocked (active : Bool)
  | socketFails
  | socketGone
  deriving DecidableEq, Repr

namespace State

-- `openPool` starts the supervisor also for a socket whose first connect has failed
def boot (maxRetries : Nat) (connected : Bool) : State where
  maxRetries
  bootDegraded := !connected
  ctxDone := false
  raw := if connected then some .connected else none
  blockedCh := none
  closeCh := none
  forceReconnectCh := .make
  blockedSince := false
  blocked := false
  reconnecting := !connected
  lastConnected := none
  pc := .top

def readRaw (s : State) : State :=
  match s.raw with
  | some _ => { s with pc := .notifyBlocked }
  | none =>
    if (s.bootDegraded ∨ s.reconnecting) ∧ s.ctxDone = false then
      { s with pc := .reconnect }
    else
      { s with pc := .exited }

-- a fresh channel, which the client closes at once if the socket is gone
def registered {α : Type} {cap : Nat} : Socket → Option (Chan α cap)
  | .connected => some .make
  | .failing => none
  | .gone => some Chan.make.close

def notifyBlocked (s : State) : Option State :=
  match s.raw.bind registered with
  | none => none
  | some ch => some { s with blockedCh := some ch, pc := .notifyClose }

def notifyClose (s : State) : Option State :=
  match s.raw.bind registered with
  | none => none
  | some ch => some { s with closeCh := some ch, blockedSince := false, pc := .watch }

-- `raw.Close()`: a graceful close sends no error
def closeRaw (s : State) : State :=
  { s with
    raw := s.raw.map (fun _ => .gone)
    blockedCh := s.blockedCh.map Chan.close
    closeCh := s.closeCh.map Chan.close }

def watchBlocked (s : State) : Option State :=
  match s.blockedCh.bind Chan.recv with
  | none => none
  | some (none, _) => some { s with pc := .reconnect }
  | some (some true, ch) =>
    some { s with blockedCh := some ch, blockedSince := true, blocked := true }
  | some (some false, ch) =>
    if s.blockedSince then
      some { s with blockedCh := some ch, blockedSince := false, blocked := false }
    else
      some { s with blockedCh := some ch }

def watchClose (s : State) : Option State :=
  match s.closeCh.bind Chan.recv with
  | none => none
  | some (none, _) => some { s with pc := .exited }
  | some (some _, ch) =>
    if s.ctxDone then
      some { s with closeCh := some ch, pc := .exited }
    else
      some { s with closeCh := some ch, pc := .reconnect }

def watchForce (s : State) : Option State :=
  match s.forceReconnectCh.recv with
  | some (some _, forceReconnectCh) =>
    some { { s with forceReconnectCh }.closeRaw with pc := .reconnect }
  | _ => none

def enterReconnect (s : State) : State :=
  if s.ctxDone then
    { s with pc := .exited }
  else
    { s with blocked := false, reconnecting := true, pc := .dialing 0 }

-- `Loop.run` looks at the context before it looks at the result
def dialErr (s : State) (attempt : Nat) : State :=
  if s.ctxDone then
    { s with pc := .dialed false }
  else if 0 < s.maxRetries ∧ s.maxRetries ≤ attempt + 1 then
    { s with pc := .dialed false }
  else
    { s with pc := .backoff (attempt + 1) }

def reconnectRawReturn (s : State) (connected : Bool) : State :=
  if connected then
    { s with lastConnected := some true, pc := .barrier }
  else
    { s with lastConnected := some false, reconnecting := false, pc := .exited }

def step (s : State) (a : Action) : Option State :=
  match a, s.pc with
  | .readRaw, .top => some s.readRaw
  | .notifyBlocked, .notifyBlocked => s.notifyBlocked
  | .notifyClose, .notifyClose => s.notifyClose
  | .watchCtx, .watch => if s.ctxDone then some { s.closeRaw with pc := .exited } else none
  | .watchBlocked, .watch => s.watchBlocked
  | .watchClose, .watch => s.watchClose
  | .watchForce, .watch => s.watchForce
  | .enterReconnect, .reconnect => some s.enterReconnect
  | .dialOk, .dialing _ =>
    some { s with raw := some .connected, blockedCh := none, closeCh := none, pc := .dialed true }
  | .dialErr, .dialing attempt => some (s.dialErr attempt)
  | .backoffTimer, .backoff attempt => some { s with pc := .dialing attempt }
  | .backoffCtx, .backoff _ => if s.ctxDone then some { s with pc := .dialed false } else none
  | .reconnectRawReturn, .dialed connected => some (s.reconnectRawReturn connected)
  | .barrierDone, .barrier => some { s with reconnecting := false, pc := .top }
  | .barrierShutdown, .barrier =>
    if s.ctxDone then some { s with reconnecting := false, pc := .top } else none
  | .barrierCap, .barrier => some { s with raw := none, pc := .top }
  | .cancel, _ => some { s with ctxDone := true }
  | .forceReconnect, _ =>
    match s.forceReconnectCh.trySend () with
    | some forceReconnectCh => some { s with forceReconnectCh }
    | none => some s
  | .brokerBlocked active, _ =>
    match s.raw, s.blockedCh with
    | some .connected, some ch =>
      match ch.trySend active with
      | some ch => some { s with blockedCh := some ch }
      | none => none
    | _, _ => none
  | .socketFails, _ =>
    match s.raw, s.closeCh with
    | some .connected, none => some { s with raw := some .failing }
    | some .connected, some ch =>
      match ch.trySend () with
      | some ch => some { s with raw := some .failing, closeCh := some ch }
      | none => none
    | _, _ => none
  | .socketGone, _ =>
    match s.raw with
    | some .failing => some s.closeRaw
    | _ => none
  | _, _ => none

end State
end Supervisor
