import Warren.Consumer.Dispatch.Impl
import Warren.Consumer.Pause.Impl

/-!
All subscriptions of one `Consumer` (`consumer.go`) over the physical channels and sockets that it
goes through: `runConsume` with `recoverDeliveryChannel`, the reconnect hook, `openDeliveryCh` for
each of its callers, `Pause`, `Resume`, the pumps and the dispatches. The broker takes a consumer
tag once per channel. `up` is the socket that is open, which `mc.raw` still names for a while after
it was lost; every socket has a fresh number.
-/

namespace Subscription

open CounterB (RedeliveryCounter)
open Dispatch (Verdict Handling)
open Function

structure Config where
  consumer : Dispatch.Consumer
  -- `Consume`, not `ConsumeRaw`
  autoAck : Bool
  concurrency : Nat
  message : Nat → Dispatch.Delivery

-- a physical channel with the notifications and the `channelDone` of its `liveSub`
structure Channel where
  socket : Nat
  died : Bool
  closeCh : Chan Unit 1
  cancelCh : Chan Unit 1
  done : Bool
  deriving DecidableEq, Repr

-- one `basic.consume`: `cancelled` says that the broker has ended it
structure Sub (prefetch : Nat) extends Pause.Sub prefetch where
  chan : Nat
  cancelled : Bool
  started : Bool
  deriving DecidableEq, Repr

inductive OpenPhase where
  | rotating
  | reading
  | opening (socket : Nat)
  | subscribing (c : Nat)
  | publishing (i : Nat)
  deriving DecidableEq, Repr

inductive Caller where
  | loop
  | hook (b : Nat)
  deriving DecidableEq, Repr

-- with what `runConsume` returns, `ctxDone` is nil
inductive Result where
  | ctxDone
  | cancelled
  | openErr
  deriving DecidableEq, Repr

inductive LoopPhase where
  | entered
  | opening (p : OpenPhase)
  | selecting
  | acquiring (c d : Nat)
  | sawClosed
  | parked
  | guarding
  | polling
  | polled
  | notReconnecting
  | reopening (p : OpenPhase)
  | backingOff
  | recoverStop
  | stopping
  | cancelling
  | cancelSent (c : Nat)
  | draining
  | brokerCancel
  | returned (r : Result)
  deriving DecidableEq, Repr

-- `entered` covers the hooks before this one and the jitter, `after` the hooks behind it
inductive HookPhase where
  | entered
  | opening (p : OpenPhase)
  | sending (i : Nat)
  | after
  | finished
  deriving DecidableEq, Repr

structure HookRun where
  phase : HookPhase
  hookCtxDone : Bool
  deriving DecidableEq, Repr

inductive SuperPhase where
  | watching
  | redialing
  | dialed
  | barrier (b : Nat)
  | capped (b : Nat)
  | closing (b : Nat)
  | exited
  deriving DecidableEq, Repr

inductive MuPhase where
  | free
  | pausing
  | resuming
  | subscribed (i : Nat)
  | swapped (i prevCounter : Nat)
  | handedOver
  | rollingBack (i : Nat)
  deriving DecidableEq, Repr

structure Handler where
  chan : Nat
  d : Nat
  cs : Option Nat
  resolved : Bool
  deriving DecidableEq, Repr

structure State (prefetch : Nat) where
  raw : Option Nat
  up : Option Nat
  nextSocket : Nat
  reconnecting : Bool
  super : SuperPhase
  connCtxDone : Bool
  registered : Bool
  hooks : Nat → Option HookRun
  nextBarrier : Nat
  chans : Nat → Option Channel
  nextChan : Nat
  subs : Nat → Option (Sub prefetch)
  nextSub : Nat
  live : Option Nat
  paused : Bool
  mu : MuPhase
  counterState : Nat
  nextCounter : Nat
  counters : Nat → RedeliveryCounter
  resubCh : Chan Nat 1
  cancelReasonCh : Chan Unit 1
  ctxDone : Bool
  closed : Bool
  loop : LoopPhase
  cur : Option Nat
  reopened : Bool
  handlers : List Handler
  pushed : List (Nat × Nat)
  frames : List (Nat × Verdict)
  uses : List (Nat × Nat)

inductive OpenAction where
  | rotate
  | readRaw
  | channelOk
  | channelErr
  | consumeOk
  | consumeErr
  | publish
  deriving DecidableEq, Repr

inductive LoopAction where
  | registerHook
  | ctxDone
  | adopt
  | brokerCancel
  | recv
  | acquire
  | seeClosed
  | readPaused (recent : Bool)
  | guardElapsed
  | pollDefault
  | checkReconnecting
  | checkPaused
  | backoffElapsed
  | wgWait
  | readLive
  | cancel (ok : Bool)
  | drain
  | drainErr
  | drainClosed
  | drainDefault
  | drainSkip
  deriving DecidableEq, Repr

inductive HookAction where
  | jitterElapsed
  | quit
  | send
  | sendCancelled
  | later
  deriving DecidableEq, Repr

inductive MuAction where
  | pauseBegin
  | pauseOk
  | pauseErr
  | resumeBegin
  | resumeConsumeOk
  | resumeConsumeErr
  | resumeSwap
  | resumeSend
  | resumeClear
  | resumeRollback
  | resumeCancel (ok : Bool)
  deriving DecidableEq, Repr

inductive HandlerAction where
  | load
  | verdict (v : Verdict)
  | finish (h : Handling)
  deriving DecidableEq, Repr

inductive SuperAction where
  | reconnect
  | dial
  | dialFailed
  | runBarrier
  | done
  | cap
  | capRaw
  | capClose
  | shutdown
  | exit
  deriving DecidableEq, Repr

inductive EnvAction where
  | deliver (i d : Nat)
  | cancelCtx
  | close
  | closeConn
  | socketLost
  | die (c : Nat)
  | dieStreams (c : Nat)
  | cancelByBroker (c : Nat)
  | endStream (i : Nat)
  deriving DecidableEq, Repr

inductive Action where
  | openDeliveryCh (who : Caller) (a : OpenAction)
  | loop (a : LoopAction)
  | hook (b : Nat) (a : HookAction)
  | mu (a : MuAction)
  | pump (i : Nat) (a : Pause.PumpAction)
  | handler (h : Handler) (a : HandlerAction)
  | super (a : SuperAction)
  | env (a : EnvAction)
  deriving DecidableEq, Repr

namespace State

variable {prefetch : Nat}

-- a socket that could not be dialled at the start is supervised as if it had been lost
def init (prefetch : Nat) (bootDegraded : Bool) : State prefetch where
  raw := if bootDegraded then none else some 0
  up := if bootDegraded then none else some 0
  nextSocket := 1
  reconnecting := bootDegraded
  super := if bootDegraded then .redialing else .watching
  connCtxDone := false
  registered := false
  hooks := fun _ => none
  nextBarrier := 0
  chans := fun _ => none
  nextChan := 0
  subs := fun _ => none
  nextSub := 0
  live := none
  paused := false
  mu := .free
  counterState := 0
  nextCounter := 1
  counters := fun _ => .new
  resubCh := .make
  cancelReasonCh := .make
  ctxDone := false
  closed := false
  loop := .entered
  cur := none
  reopened := false
  handlers := []
  pushed := []
  frames := []
  uses := []

def setSub (s : State prefetch) (i : Nat) (sub : Sub prefetch) : State prefetch :=
  { s with subs := update s.subs i (some sub) }

def setChan (s : State prefetch) (c : Nat) (ch : Channel) : State prefetch :=
  { s with chans := update s.chans c (some ch) }

def setHook (s : State prefetch) (b : Nat) (run : HookRun) : State prefetch :=
  { s with hooks := update s.hooks b (some run) }

def chanOpen (s : State prefetch) (c : Nat) : Bool :=
  match s.chans c with
  | none => false
  | some ch => ch.died = false ∧ s.up = some ch.socket

def consumes (s : State prefetch) (c : Nat) : Bool :=
  ∃ i < s.nextSub, (s.subs i).any (fun sub => sub.chan = c ∧ sub.cancelled = false)

def cancelOn (s : State prefetch) (c : Nat) : State prefetch :=
  { s with
    subs := fun i => (s.subs i).map (fun sub =>
      if sub.chan = c then { sub with cancelled := true, closed := true } else sub) }

-- a frame for a delivery, which is lost on a channel that is not open
def sendFrame (s : State prefetch) (c d : Nat) (v : Verdict) : State prefetch :=
  if s.chanOpen c then { s with frames := s.frames ++ [(d, v)] } else s

def newChan (s : State prefetch) (socket : Nat) : State prefetch :=
  { s.setChan s.nextChan ⟨socket, false, .make, .make, false⟩ with nextChan := s.nextChan + 1 }

def newSub (s : State prefetch) (c : Nat) (started : Bool) : State prefetch :=
  { s.setSub s.nextSub ⟨⟨[], false, .idle, .make⟩, c, false, started⟩ with
    nextSub := s.nextSub + 1 }

-- both `openDeliveryCh` and `Resume` install an empty `redeliveryCounter`
def newCounter (s : State prefetch) : State prefetch :=
  { s with counterState := s.nextCounter, nextCounter := s.nextCounter + 1 }

def openPhase (s : State prefetch) : Caller → Option OpenPhase
  | .loop =>
    match s.loop with
    | .opening p => some p
    | .reopening p => some p
    | _ => none
  | .hook b =>
    match s.hooks b with
    | some ⟨.opening p, _⟩ => some p
    | _ => none

def hookGoto (s : State prefetch) (b : Nat) (phase : HookPhase) : State prefetch :=
  { s with
    hooks := update s.hooks b ((s.hooks b).map (fun run => { run with phase })) }

def openGoto (s : State prefetch) (who : Caller) (p : OpenPhase) : State prefetch :=
  match who with
  | .loop =>
    { s with
      loop := match s.loop with
        | .opening _ => .opening p
        | _ => .reopening p }
  | .hook b => s.hookGoto b (.opening p)

def openFail (s : State prefetch) : Caller → State prefetch
  | .loop =>
    { s with
      loop := match s.loop with
        | .opening _ => .returned .openErr
        | _ => .backingOff }
  | .hook b => s.hookGoto b .finished

def openReturn (s : State prefetch) (who : Caller) (i : Nat) : State prefetch :=
  match who with
  | .loop =>
    { s with
      loop := .selecting
      cur := some i
      reopened := match s.loop with
        | .opening _ => s.reopened
        | _ => true }
  | .hook b => s.hookGoto b (.sending i)

-- `ch.Close()` after `Qos` or `Consume` has failed
def closeChan (s : State prefetch) (c : Nat) : State prefetch :=
  { s with
    chans := update s.chans c ((s.chans c).map (fun ch => { ch with died := true })) }

-- `c.live` and `c.paused` are written under `pauseMu`
def openPublish (s : State prefetch) (who : Caller) (i : Nat) : Option (State prefetch) :=
  match s.subs i with
  | none => none
  | some sub =>
    if s.mu = .free then
      some (({ s with live := some sub.chan, paused := false }.setSub i
        { sub with started := true }).openReturn who i)
    else
      none

def openStep (s : State prefetch) (who : Caller) (a : OpenAction) : Option (State prefetch) :=
  match a, s.openPhase who with
  | .rotate, some .rotating => some (s.newCounter.openGoto who .reading)
  | .readRaw, some .reading =>
    match s.raw with
    | none => some (s.openFail who)
    | some socket => some (s.openGoto who (.opening socket))
  | .channelOk, some (.opening socket) =>
    if s.up = some socket then
      some ((s.newChan socket).openGoto who (.subscribing s.nextChan))
    else
      none
  | .channelErr, some (.opening _) => some (s.openFail who)
  | .consumeOk, some (.subscribing c) =>
    if s.chanOpen c then
      some ((s.newSub c false).openGoto who (.publishing s.nextSub))
    else
      none
  | .consumeErr, some (.subscribing c) => some ((s.closeChan c).openFail who)
  | .publish, some (.publishing i) => s.openPublish who i
  | _, _ => none

def inRecoverSelect (s : State prefetch) : Bool :=
  s.loop = .parked ∨ s.loop = .guarding ∨ s.loop = .polling ∨ s.loop = .backingOff

def inSelect (s : State prefetch) : Bool :=
  s.loop = .selecting ∨ s.inRecoverSelect

def curSub (s : State prefetch) : Option (Nat × Sub prefetch) :=
  match s.cur with
  | none => none
  | some i => (s.subs i).map (fun sub => (i, sub))

def loopCtxDone (s : State prefetch) : Option (State prefetch) :=
  if s.ctxDone then
    if s.loop = .selecting then
      some { s with loop := .stopping }
    else if s.inRecoverSelect then
      some { s with loop := .recoverStop }
    else
      none
  else
    none

def loopAdopt (s : State prefetch) : Option (State prefetch) :=
  if s.inSelect then
    match s.resubCh.recv with
    | some (some i, resubCh) => some { s with cur := some i, resubCh, loop := .selecting }
    | _ => none
  else
    none

def loopBrokerCancel (s : State prefetch) : Option (State prefetch) :=
  if s.inSelect then
    match s.cancelReasonCh.recv with
    | some (some _, cancelReasonCh) => some { s with cancelReasonCh, loop := .brokerCancel }
    | _ => none
  else
    none

-- a receive on `cur.ch`, with the value that is `none` when it is closed and drained
def recvCur (s : State prefetch) : Option (Nat × Option Nat × State prefetch) :=
  match s.curSub with
  | none => none
  | some (i, sub) =>
    match sub.out.recv with
    | none => none
    | some (d, out) => some (sub.chan, d, s.setSub i { sub with out })

def loopRecv (s : State prefetch) : Option (State prefetch) :=
  match s.recvCur with
  | some (c, some d, s) => some { s with loop := .acquiring c d }
  | _ => none

def loopSeeClosed (s : State prefetch) : Option (State prefetch) :=
  match s.recvCur with
  | some (_, none, _) => some { s with loop := .sawClosed }
  | _ => none

def loopAcquire (cfg : Config) (s : State prefetch) (c d : Nat) : Option (State prefetch) :=
  if s.handlers.length < cfg.concurrency then
    some { s with handlers := s.handlers ++ [⟨c, d, none, false⟩], loop := .selecting }
  else
    none

-- `recent` says that the last reopen is less than `channelRecoverMaxBackoff` ago
def loopReadPaused (s : State prefetch) (recent : Bool) : Option (State prefetch) :=
  if s.paused then
    some { s with loop := .parked }
  else if recent then
    if s.reopened then some { s with loop := .guarding } else none
  else
    some { s with loop := .polling }

-- the default of a `select` is taken only when no other arm is ready
def loopPollDefault (s : State prefetch) : Option (State prefetch) :=
  if s.ctxDone = false ∧ s.cancelReasonCh.buf = [] ∧ s.resubCh.buf = [] then
    some { s with loop := .polled }
  else
    none

def loopWgWait (s : State prefetch) : Option (State prefetch) :=
  if s.handlers = [] then
    match s.loop with
    | .stopping => some { s with loop := .cancelling }
    | .recoverStop => some { s with loop := .returned .ctxDone }
    | .brokerCancel => some { s with loop := .returned .cancelled }
    | _ => none
  else
    none

def loopReadLive (s : State prefetch) : Option (State prefetch) :=
  if s.mu = .free then
    match s.live with
    | none => some { s with loop := .draining }
    | some c => some { s with loop := .cancelSent c }
  else
    none

def loopCancel (s : State prefetch) (c : Nat) (ok : Bool) : Option (State prefetch) :=
  if ok then
    if s.chanOpen c then some { s.cancelOn c with loop := .draining } else none
  else
    some { s with loop := .draining }

-- `requeueUndispatched`: the nack of a delivery of `cur.ch`, and how the drain ends
def loopDrain (cfg : Config) (s : State prefetch) (a : LoopAction) : Option (State prefetch) :=
  let returned (s : State prefetch) : State prefetch := { s with loop := .returned .ctxDone }
  if cfg.consumer.brokerAutoAck then
    if a = .drainSkip then some (returned s) else none
  else
    match a, s.recvCur with
    | .drain, some (c, some d, s) => some (s.sendFrame c d (.nack true))
    | .drainErr, some (c, some _, s) => if s.chanOpen c then none else some (returned s)
    | .drainClosed, some (_, none, _) => some (returned s)
    | .drainDefault, none => some (returned s)
    | _, _ => none

def loopStep (cfg : Config) (s : State prefetch) (a : LoopAction) : Option (State prefetch) :=
  match a, s.loop with
  | .registerHook, .entered => some { s with registered := true, loop := .opening .rotating }
  | .ctxDone, _ => s.loopCtxDone
  | .adopt, _ => s.loopAdopt
  | .brokerCancel, _ => s.loopBrokerCancel
  | .recv, .selecting => s.loopRecv
  | .acquire, .acquiring c d => s.loopAcquire cfg c d
  | .seeClosed, .selecting => s.loopSeeClosed
  | .readPaused recent, .sawClosed => s.loopReadPaused recent
  | .guardElapsed, .guarding => some { s with loop := .polling }
  | .pollDefault, .polling => s.loopPollDefault
  | .checkReconnecting, .polled =>
    some { s with loop := if s.reconnecting then .backingOff else .notReconnecting }
  | .checkPaused, .notReconnecting =>
    some { s with loop := if s.paused then .backingOff else .reopening .rotating }
  | .backoffElapsed, .backingOff => some { s with loop := .polling }
  | .wgWait, _ => s.loopWgWait
  | .readLive, .cancelling => s.loopReadLive
  | .cancel ok, .cancelSent c => s.loopCancel c ok
  | a, .draining => s.loopDrain cfg a
  | _, _ => none

def hookSend (s : State prefetch) (b i : Nat) : Option (State prefetch) :=
  match s.resubCh.trySend i with
  | none => none
  | some resubCh => some ({ s with resubCh }.hookGoto b .after)

def hookStep (s : State prefetch) (b : Nat) (a : HookAction) : Option (State prefetch) :=
  match a, s.hooks b with
  | .jitterElapsed, some ⟨.entered, _⟩ => some (s.hookGoto b (.opening .rotating))
  -- a hook before this one has failed, or `hookCtx` has ended during the jitter
  | .quit, some ⟨.entered, _⟩ => some (s.hookGoto b .finished)
  | .send, some ⟨.sending i, _⟩ => s.hookSend b i
  | .sendCancelled, some ⟨.sending _, true⟩ => some (s.hookGoto b .finished)
  | .later, some ⟨.after, _⟩ => some (s.hookGoto b .finished)
  | _, _ => none

def resumeConsume (s : State prefetch) : Option (State prefetch) :=
  match s.live with
  | none => none
  | some c =>
    if s.chanOpen c ∧ s.consumes c = false then
      some { s.newSub c true with mu := .subscribed s.nextSub }
    else
      none

-- the `basic.cancel` of `Pause`, and of `Resume` when it rolls back
def cancelLive (s : State prefetch) : Option (State prefetch) :=
  match s.live with
  | none => none
  | some c => if s.chanOpen c then some { s.cancelOn c with mu := .free } else none

def muStep (s : State prefetch) (a : MuAction) : Option (State prefetch) :=
  match a, s.mu with
  | .pauseBegin, .free =>
    if s.closed ∨ s.paused ∨ s.live = none then
      none
    else
      some { s with paused := true, mu := .pausing }
  | .pauseOk, .pausing => s.cancelLive
  | .pauseErr, .pausing => some { s with paused := false, mu := .free }
  | .resumeBegin, .free =>
    if s.paused ∧ s.closed = false then some { s with mu := .resuming } else none
  | .resumeConsumeOk, .resuming => s.resumeConsume
  | .resumeConsumeErr, .resuming => some { s with mu := .free }
  | .resumeSwap, .subscribed i => some { s.newCounter with mu := .swapped i s.counterState }
  | .resumeSend, .swapped i _ =>
    match s.resubCh.trySend i with
    | none => none
    | some resubCh => some { s with resubCh, mu := .handedOver }
  | .resumeClear, .handedOver => some { s with paused := false, mu := .free }
  | .resumeRollback, .swapped i prevCounter =>
    some { s with counterState := prevCounter, mu := .rollingBack i }
  | .resumeCancel ok, .rollingBack _ => if ok then s.cancelLive else some { s with mu := .free }
  | _, _ => none

def pumpView (s : State prefetch) (i : Nat) (sub : Sub prefetch) (ch : Channel)
    : Pause.State prefetch :=
  { Pause.State.init prefetch 0 with
    subs := update (fun _ => none) i (some sub.toSub)
    paused := s.paused
    closeCh := ch.closeCh
    cancelCh := ch.cancelCh
    cancelReasonCh := s.cancelReasonCh
    channelDone := ch.done
    ctxDone := s.ctxDone }

def pumpWrite (s : State prefetch) (i : Nat) (sub : Sub prefetch) (ch : Channel)
    (v : Pause.State prefetch) : State prefetch :=
  { s with
    subs := update s.subs i ((v.subs i).map (fun toSub => { sub with toSub }))
    chans := update s.chans sub.chan
      (some { ch with closeCh := v.closeCh, cancelCh := v.cancelCh, done := v.channelDone })
    cancelReasonCh := v.cancelReasonCh }

def pumpStep (s : State prefetch) (i : Nat) (a : Pause.PumpAction) : Option (State prefetch) :=
  match s.subs i, (s.subs i).bind (fun sub => s.chans sub.chan) with
  | some sub, some ch =>
    if sub.started then
      ((s.pumpView i sub ch).pumpStep i a).map (s.pumpWrite i sub ch)
    else
      none
  | _, _ => none

def delivery (cfg : Config) (s : State prefetch) (h : Handler) : Dispatch.Delivery :=
  { cfg.message h.d with done := s.closed, resolved := h.resolved }

def reachesHandler (cfg : Config) (d : Nat) : Bool :=
  (cfg.message d).decodes ∧
  ¬(¬cfg.consumer.brokerAutoAck ∧ 0 < cfg.consumer.maxRedeliveries ∧
    cfg.consumer.maxRedeliveries ≤ (cfg.message d).deathCount)

def counted (cfg : Config) (d : Nat) : Bool :=
  reachesHandler cfg d ∧ cfg.consumer.counterBKey (cfg.message d) cfg.autoAck ≠ []

def handlingReady (s : State prefetch) (h : Handler) : Handling → Bool
  | .returned _ channelClosed => channelClosed = (s.chans h.chan).any (·.done)
  | .chanDone => (s.chans h.chan).any (·.done)
  | .deadline => true
  | .ctxDone => s.ctxDone

def usesCounter : Handling → Bool
  | .returned handlerErr channelClosed => ¬(channelClosed ∧ handlerErr ≠ none)
  | _ => false

def replaceHandler (s : State prefetch) (h h' : Handler) : State prefetch :=
  { s with handlers := h' :: s.handlers.erase h }

def sendVerdict (s : State prefetch) (h : Handler) : Option Verdict → State prefetch
  | none => s
  | some v => s.sendFrame h.chan h.d v

def useCounter (s : State prefetch) (h : Handler) (handling : Handling) (cs : RedeliveryCounter)
    : State prefetch :=
  match h.cs with
  | none => s
  | some k =>
    if usesCounter handling then
      { s with counters := update s.counters k cs, uses := s.uses ++ [(h.chan, k)] }
    else
      s

def handlerFinish (cfg : Config) (s : State prefetch) (h : Handler) (handling : Handling)
    : Option (State prefetch) :=
  if s.handlingReady h handling ∧ (counted cfg h.d → h.cs.isSome) then
    let cs := (h.cs.map s.counters).getD .new
    match cfg.consumer.dispatch cs (s.delivery cfg h) cfg.autoAck handling with
    | none => none
    | some (cs, v) =>
      some { (s.useCounter h handling cs).sendVerdict h v with handlers := s.handlers.erase h }
  else
    none

def handlerStep (cfg : Config) (s : State prefetch) (h : Handler) (a : HandlerAction)
    : Option (State prefetch) :=
  if h ∈ s.handlers then
    match a with
    | .load =>
      if counted cfg h.d ∧ h.cs = none then
        some (s.replaceHandler h { h with cs := some s.counterState })
      else
        none
    | .verdict v =>
      if cfg.autoAck = false ∧ cfg.consumer.brokerAutoAck = false ∧ reachesHandler cfg h.d ∧
          s.closed = false ∧ h.resolved = false then
        some ((s.sendFrame h.chan h.d v).replaceHandler h { h with resolved := true })
      else
        none
    | .finish handling => s.handlerFinish cfg h handling
  else
    none

def cancelHookCtx (s : State prefetch) (b : Nat) : State prefetch :=
  { s with
    hooks := update s.hooks b
      ((s.hooks b).map (fun run => { run with hookCtxDone := true })) }

-- the hook list is copied when the barrier starts
def runBarrier (s : State prefetch) : State prefetch :=
  { s.setHook s.nextBarrier ⟨if s.registered then .entered else .after, s.connCtxDone⟩ with
    nextBarrier := s.nextBarrier + 1
    super := .barrier s.nextBarrier }

def barrierDone (s : State prefetch) (b : Nat) : Option (State prefetch) :=
  match s.hooks b with
  | some ⟨.finished, _⟩ => some { s.cancelHookCtx b with reconnecting := false, super := .watching }
  | _ => none

def superStep (s : State prefetch) (a : SuperAction) : Option (State prefetch) :=
  match a, s.super with
  | .reconnect, .watching =>
    if s.up = none ∧ s.connCtxDone = false then
      some { s with reconnecting := true, super := .redialing }
    else
      none
  | .dial, .redialing =>
    some { s with
      raw := some s.nextSocket
      up := some s.nextSocket
      nextSocket := s.nextSocket + 1
      super := .dialed }
  | .dialFailed, .redialing => some { s with reconnecting := false, super := .exited }
  | .runBarrier, .dialed => some s.runBarrier
  | .done, .barrier b => s.barrierDone b
  -- the cap cancels the hooks, takes the socket away and closes it
  | .cap, .barrier b => some { s.cancelHookCtx b with super := .capped b }
  | .capRaw, .capped b => some { s with raw := none, super := .closing b }
  | .capClose, .closing _ => some { s with up := none, super := .redialing }
  | .shutdown, .barrier b =>
    if s.connCtxDone then
      some { s.cancelHookCtx b with reconnecting := false, super := .watching }
    else
      none
  -- `ctx.Done` closes the socket, the other way is a close notification without an error
  | .exit, .watching =>
    if s.connCtxDone ∨ s.up = none then some { s with up := none, super := .exited } else none
  | .exit, .redialing => if s.connCtxDone then some { s with super := .exited } else none
  | _, _ => none

def deliver (s : State prefetch) (i d : Nat) : Option (State prefetch) :=
  match s.subs i with
  | none => none
  | some sub =>
    if s.chanOpen sub.chan ∧ sub.cancelled = false ∧ ¬∃ p ∈ s.pushed, p.2 = d then
      some { s.setSub i { sub with queue := sub.queue ++ [d] } with
        pushed := s.pushed ++ [(sub.chan, d)] }
    else
      none

def die (s : State prefetch) (c : Nat) : Option (State prefetch) :=
  match s.chans c with
  | none => none
  | some ch =>
    if ch.died then
      none
    else
      match ch.closeCh.trySend () with
      | none => none
      | some closeCh =>
        some (s.setChan c
          { ch with died := true, closeCh := closeCh.close, cancelCh := ch.cancelCh.close })

def dieStreams (s : State prefetch) (c : Nat) : Option (State prefetch) :=
  match s.chans c with
  | none => none
  | some ch =>
    if ch.died then
      some { s with
        subs := fun i => (s.subs i).map (fun sub =>
          if sub.chan = c then { sub with queue := [], closed := true } else sub) }
    else
      none

-- the notification comes before the stream is closed
def cancelByBroker (s : State prefetch) (c : Nat) : Option (State prefetch) :=
  match s.chans c with
  | none => none
  | some ch =>
    if s.chanOpen c ∧ s.consumes c then
      match ch.cancelCh.trySend () with
      | none => none
      | some cancelCh =>
        some { s.setChan c { ch with cancelCh } with
          subs := fun i => (s.subs i).map (fun sub =>
            if sub.chan = c then { sub with cancelled := true } else sub) }
    else
      none

def endStream (s : State prefetch) (i : Nat) : Option (State prefetch) :=
  match s.subs i with
  | none => none
  | some sub => if sub.cancelled then some (s.setSub i { sub with closed := true }) else none

def envStep (s : State prefetch) : EnvAction → Option (State prefetch)
  | .deliver i d => s.deliver i d
  | .cancelCtx => some { s with ctxDone := true }
  | .close => some { s with closed := true }
  | .closeConn =>
    some { s with
      connCtxDone := true
      hooks := fun b => (s.hooks b).map (fun run => { run with hookCtxDone := true }) }
  | .socketLost => some { s with up := none }
  | .die c => s.die c
  | .dieStreams c => s.dieStreams c
  | .cancelByBroker c => s.cancelByBroker c
  | .endStream i => s.endStream i

def step (cfg : Config) (s : State prefetch) : Action → Option (State prefetch)
  | .openDeliveryCh who a => s.openStep who a
  | .loop a => s.loopStep cfg a
  | .hook b a => s.hookStep b a
  | .mu a => s.muStep a
  | .pump i a => s.pumpStep i a
  | .handler h a => s.handlerStep cfg h a
  | .super a => s.superStep a
  | .env a => s.envStep a

end State

def Caller.subscribes (who : Caller) : List Action :=
  [.rotate, .readRaw, .channelOk, .consumeOk, .publish].map (.openDeliveryCh who)

def reconnects (b : Nat) : List Action :=
  [.env .socketLost, .super .reconnect, .super .dial, .super .runBarrier, .hook b .jitterElapsed]

def dispatches (i d : Nat) : List Action :=
  [.env (.deliver i d), .pump i .take, .pump i .send, .loop .recv, .loop .acquire]

def plainConsume : Config where
  consumer := ⟨[], 0, false, false, false, .nackNoRequeue⟩
  autoAck := true
  concurrency := 1
  message := fun _ => ⟨[], 1, true, 0, false, false⟩

end Subscription
