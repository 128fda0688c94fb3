import Warren.Base.Chan
import Warren.Base.Run
import Mathlib.Logic.Function.Basic

/-!
`Caller` (`rpc.go`): any number of concurrent `Call`s over the sessions that `ensureSession` opens,
each with the `dispatch` goroutine that routes its replies, and `Close`. A delivery is known by its
place in the order of arrival.
-/

namespace Rpc

open Function

structure Delivery (Id Body : Type) where
  correlationId : Id
  body : Body
  -- `Acknowledger` is not nil, as it is for every delivery of the broker
  acknowledger : Bool
  deriving DecidableEq, Repr

structure Config (Body Resp : Type) where
  useExclusiveQueue : Bool
  prefetch : Nat
  -- `safeDecodeConsumer`, `none` is an error
  decode : Body → Option Resp

inductive ReplyTo where
  | directReplyToQueue
  | queue (name : Nat)
  deriving DecidableEq, Repr

inductive OpenErr where
  | openChannel
  | declareQueue
  | qos
  | subscribe
  deriving DecidableEq, Repr

structure Broker where
  openChannel : Bool
  queueDeclare : Option Nat
  qos : Bool
  consume : Bool
  deriving DecidableEq, Repr

-- what a `Call` returns, with the delivery that it has taken
inductive Result (Resp : Type) where
  | alreadyClosed
  | barrierErr
  | openErr (e : OpenErr)
  | noCorrelationId
  | encodeErr
  | publishErr
  | callTimeout
  | channelClosed
  | decodeErr (n : Nat)
  | response (n : Nat) (resp : Resp)
  deriving DecidableEq, Repr

inductive CallPhase (Id Resp : Type) where
  -- `ensureSession`, the second and the third with the mutex
  | entered
  | waitingBarrier
  | openingSession
  | connected (k : Nat)
  | identified (k : Nat) (cid : Id)
  | registered (k : Nat) (cid : Id)
  | awaiting (k : Nat) (cid : Id)
  | returning (cid : Id) (r : Result Resp)
  | returned (cid : Option Id) (r : Result Resp)
  deriving DecidableEq, Repr

inductive DispatchPhase where
  | receiving
  | loading (n : Nat)
  | sending (n : Nat) (slot : Nat)
  | acking (n : Nat)
  | exited
  deriving DecidableEq, Repr

structure Session where
  replyTo : ReplyTo
  ackReplies : Bool
  done : Bool
  closed : Bool
  dispatch : DispatchPhase
  deriving DecidableEq, Repr

structure State (Id Body Resp : Type) where
  mu : Option Nat
  session : Option Nat
  closed : Bool
  sessions : List Session
  calls : List (CallPhase Id Resp)
  -- the reply slot of a call, which `pending` refers to by the call
  slots : Nat → Chan Nat 1
  pending : Id → Option Nat
  deliveries : List (Delivery Id Body)
  acks : List Nat

inductive CallAction (Id : Type) where
  | lock
  | barrierErr
  | barrierOk
  | openSession (broker : Broker)
  | noCorrelationId
  | identify (cid : Id)
  | encodeErr
  | register
  | publishErr
  | publish
  | ctxDone
  | sessionDone
  | reply
  | unregister
  deriving DecidableEq, Repr

inductive DispatchAction where
  | load
  | send
  | ack
  | exit
  deriving DecidableEq, Repr

inductive Action (Id Body : Type) where
  | begin
  | call (j : Nat) (a : CallAction Id)
  | close
  | deliver (k : Nat) (d : Delivery Id Body)
  | dispatch (k : Nat) (a : DispatchAction)
  | sessionDies (k : Nat)
  deriving DecidableEq, Repr

def CallPhase.cid {Id Resp : Type} : CallPhase Id Resp → Option Id
  | .identified _ cid => some cid
  | .registered _ cid => some cid
  | .awaiting _ cid => some cid
  | .returning cid _ => some cid
  | .returned cid _ => cid
  | _ => none

def openSession {Body Resp : Type} (cfg : Config Body Resp) (b : Broker) : Except OpenErr Session :=
  if b.openChannel then
    if cfg.useExclusiveQueue then
      match b.queueDeclare with
      | none => .error .declareQueue
      | some name =>
        if 0 < cfg.prefetch ∧ b.qos = false then
          .error .qos
        else if b.consume then
          .ok ⟨.queue name, true, false, false, .receiving⟩
        else
          .error .subscribe
    else if b.consume then
      .ok ⟨.directReplyToQueue, false, false, false, .receiving⟩
    else
      .error .subscribe
  else
    .error .openChannel

namespace State

variable {Id Body Resp : Type} [DecidableEq Id]

def init : State Id Body Resp where
  mu := none
  session := none
  closed := false
  sessions := []
  calls := []
  slots := fun _ => .make
  pending := fun _ => none
  deliveries := []
  acks := []

def goto (s : State Id Body Resp) (j : Nat) (p : CallPhase Id Resp) : State Id Body Resp :=
  { s with calls := s.calls.set j p }

def setSession (s : State Id Body Resp) (k : Nat) (session : Session) : State Id Body Resp :=
  { s with sessions := s.sessions.set k session }

def aliveSession (s : State Id Body Resp) : Option Nat :=
  s.session.filter (fun k => s.sessions[k]?.any (fun session => !session.done))

def lock (s : State Id Body Resp) (j : Nat) : Option (State Id Body Resp) :=
  if s.mu = none then
    if s.closed then
      some (s.goto j (.returned none .alreadyClosed))
    else
      match s.aliveSession with
      | some k => some (s.goto j (.connected k))
      | none => some ({ s with mu := some j }.goto j .waitingBarrier)
  else
    none

def callOpenSession (cfg : Config Body Resp) (s : State Id Body Resp) (j : Nat) (b : Broker)
    : State Id Body Resp :=
  match openSession cfg b with
  | .error e => { s with mu := none }.goto j (.returned none (.openErr e))
  | .ok session =>
    { s with mu := none, session := some s.sessions.length, sessions := s.sessions ++ [session] }.goto
      j (.connected s.sessions.length)

def identify (s : State Id Body Resp) (j k : Nat) (cid : Id) : Option (State Id Body Resp) :=
  if ∃ p ∈ s.calls, p.cid = some cid then none else some (s.goto j (.identified k cid))

def register (s : State Id Body Resp) (j k : Nat) (cid : Id) : State Id Body Resp :=
  { s with
    slots := update s.slots j .make
    pending := update s.pending cid (some j) }.goto j (.registered k cid)

def sessionDone (s : State Id Body Resp) (j k : Nat) (cid : Id) : Option (State Id Body Resp) :=
  if s.sessions[k]?.any (·.done) then some (s.goto j (.returning cid .channelClosed)) else none

def decoded (cfg : Config Body Resp) (s : State Id Body Resp) (n : Nat) : Result Resp :=
  match s.deliveries[n]?.bind (fun d => cfg.decode d.body) with
  | none => .decodeErr n
  | some resp => .response n resp

def reply (cfg : Config Body Resp) (s : State Id Body Resp) (j : Nat) (cid : Id)
    : Option (State Id Body Resp) :=
  match (s.slots j).recv with
  | some (some n, slot) =>
    some ({ s with slots := update s.slots j slot }.goto j
      (.returning cid (s.decoded cfg n)))
  | _ => none

def unregister (s : State Id Body Resp) (j : Nat) (cid : Id) (r : Result Resp)
    : State Id Body Resp :=
  { s with pending := update s.pending cid none }.goto j (.returned (some cid) r)

def callStep (cfg : Config Body Resp) (s : State Id Body Resp) (j : Nat) (a : CallAction Id)
    : Option (State Id Body Resp) :=
  match a, s.calls[j]? with
  | .lock, some .entered => s.lock j
  | .barrierErr, some .waitingBarrier =>
    some ({ s with mu := none }.goto j (.returned none .barrierErr))
  | .barrierOk, some .waitingBarrier => some (s.goto j .openingSession)
  | .openSession broker, some .openingSession => some (s.callOpenSession cfg j broker)
  | .noCorrelationId, some (.connected _) => some (s.goto j (.returned none .noCorrelationId))
  | .identify cid, some (.connected k) => s.identify j k cid
  | .encodeErr, some (.identified _ cid) => some (s.goto j (.returned (some cid) .encodeErr))
  | .register, some (.identified k cid) => some (s.register j k cid)
  | .publishErr, some (.registered _ cid) => some (s.goto j (.returning cid .publishErr))
  | .publish, some (.registered k cid) => some (s.goto j (.awaiting k cid))
  | .ctxDone, some (.awaiting _ cid) => some (s.goto j (.returning cid .callTimeout))
  | .sessionDone, some (.awaiting k cid) => s.sessionDone j k cid
  | .reply, some (.awaiting _ cid) => s.reply cfg j cid
  | .unregister, some (.returning cid r) => some (s.unregister j cid r)
  | _, _ => none

def endSession (s : State Id Body Resp) (k : Nat) : State Id Body Resp :=
  match s.sessions[k]? with
  | none => s
  | some session => s.setSession k { session with closed := true }

def close (s : State Id Body Resp) : Option (State Id Body Resp) :=
  if s.mu = none then
    if s.closed then
      some s
    else
      match s.session with
      | none => some { s with closed := true }
      | some k => some { s.endSession k with closed := true }
  else
    none

-- the stream is not buffered: it hands a delivery to a dispatcher that receives
def deliver (s : State Id Body Resp) (k : Nat) (d : Delivery Id Body)
    : Option (State Id Body Resp) :=
  match s.sessions[k]? with
  | some session =>
    if session.dispatch = .receiving ∧ session.closed = false then
      some { s.setSession k { session with dispatch := .loading s.deliveries.length } with
        deliveries := s.deliveries ++ [d] }
    else
      none
  | none => none

def load (s : State Id Body Resp) (n : Nat) : DispatchPhase :=
  match s.deliveries[n]?.bind (fun d => s.pending d.correlationId) with
  | some slot => .sending n slot
  | none => .acking n

def send (s : State Id Body Resp) (n slot : Nat) : State Id Body Resp :=
  match (s.slots slot).trySend n with
  | some ch => { s with slots := update s.slots slot ch }
  | none => s

def ack (s : State Id Body Resp) (session : Session) (n : Nat) : State Id Body Resp :=
  if session.ackReplies ∧ s.deliveries[n]?.any (·.acknowledger) then
    { s with acks := s.acks ++ [n] }
  else
    s

def dispatchStep (s : State Id Body Resp) (k : Nat) (a : DispatchAction)
    : Option (State Id Body Resp) :=
  match s.sessions[k]? with
  | none => none
  | some session =>
    match a, session.dispatch with
    | .load, .loading n => some (s.setSession k { session with dispatch := s.load n })
    | .send, .sending n slot =>
      some ((s.send n slot).setSession k { session with dispatch := .acking n })
    | .ack, .acking n =>
      some ((s.ack session n).setSession k { session with dispatch := .receiving })
    | .exit, .receiving =>
      if session.closed then
        some (s.setSession k { session with dispatch := .exited, done := true })
      else
        none
    | _, _ => none

def step (cfg : Config Body Resp) (s : State Id Body Resp)
    : Action Id Body → Option (State Id Body Resp)
  | .begin => some { s with calls := s.calls ++ [.entered] }
  | .call j a => s.callStep cfg j a
  | .close => s.close
  | .deliver k d => s.deliver k d
  | .dispatch k a => s.dispatchStep k a
  | .sessionDies k => some (s.endSession k)

end State
end Rpc
