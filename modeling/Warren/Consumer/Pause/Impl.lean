import Mathlib.Logic.Function.Basic
import Warren.Base.Chan

/-!
One physical channel of a `Consumer` (`consumer.go`): the consume loop of `runConsume`, the delivery
pumps of `startPump`, `Pause` and `Resume`, and the handlers. A dying channel signals `NotifyClose`
before it closes its delivery streams, a `basic.cancel` of the broker signals `NotifyCancel` before
that, and a local cancel closes the stream only. What the loop does after it has reopened the
channel by itself is not followed.
-/

namespace Pause

inductive PumpPhase where
  | idle
  | holding (d : Nat)
  | sawClosed
  | drainedClose (death : Bool)
  | drainedCancel (death : Bool)
  | closing
  | exited
  deriving DecidableEq, Repr

-- `queue` and `closed` are the delivery stream of one `basic.consume`
structure Sub (prefetch : Nat) where
  queue : List Nat
  closed : Bool
  pump : PumpPhase
  out : Chan Nat prefetch
  deriving DecidableEq, Repr

inductive MuPhase where
  | free
  | pausing
  | resuming
  | subscribed (i : Nat)
  | handedOver
  | rollingBack
  deriving DecidableEq, Repr

inductive LoopPhase where
  | selecting
  | acquiring (d : Nat)
  | sawClosed
  | parked
  | recovering
  | reopened
  | stopped
  deriving DecidableEq, Repr

structure State (prefetch : Nat) where
  concurrency : Nat
  subs : Nat → Option (Sub prefetch)
  next : Nat
  active : Option Nat
  cur : Nat
  resubCh : Chan Nat 1
  paused : Bool
  mu : MuPhase
  closeCh : Chan Unit 1
  cancelCh : Chan Unit 1
  cancelReasonCh : Chan Unit 1
  died : Bool
  brokerCancelled : Bool
  channelDone : Bool
  ctxDone : Bool
  loop : LoopPhase
  handlers : List Nat
  handed : List Nat
  dispatched : List Nat
  settled : List Nat
  suppressed : List Nat

inductive PumpAction where
  | take
  | send
  | seeClosed
  | drainClose
  | drainCancel
  | readPaused
  | closeDone
  | recvCancel
  | recvClose
  | ctx
  deriving DecidableEq, Repr

inductive MuAction where
  | pauseBegin
  | pauseOk
  | pauseErr
  | resumeBegin
  | resumeConsumeOk
  | resumeConsumeErr
  | resumeSend
  | resumeClear
  | resumeRollback
  | resumeCancel (ok : Bool)
  deriving DecidableEq, Repr

inductive LoopAction where
  | adopt
  | recv
  | acquire
  | seeClosed
  | readPaused
  | reopen
  | stop
  | brokerCancel
  deriving DecidableEq, Repr

inductive EnvAction where
  | deliver (d : Nat)
  | settle (d : Nat)
  | suppress (d : Nat)
  | cancelCtx
  | die
  | dieStreams
  | cancelByBroker
  | cancelByBrokerStream
  deriving DecidableEq, Repr

inductive Action where
  | pump (i : Nat) (a : PumpAction)
  | mu (a : MuAction)
  | loop (a : LoopAction)
  | env (a : EnvAction)
  deriving DecidableEq, Repr

namespace State

variable {prefetch : Nat}

def init (prefetch concurrency : Nat) : State prefetch where
  concurrency
  subs := Function.update (fun _ => none) 0 (some ⟨[], false, .idle, .make⟩)
  next := 1
  active := some 0
  cur := 0
  resubCh := .make
  paused := false
  mu := .free
  closeCh := .make
  cancelCh := .make
  cancelReasonCh := .make
  died := false
  brokerCancelled := false
  channelDone := false
  ctxDone := false
  loop := .selecting
  handlers := []
  handed := []
  dispatched := []
  settled := []
  suppressed := []

def setSub (s : State prefetch) (i : Nat) (sub : Sub prefetch) : State prefetch :=
  { s with subs := Function.update s.subs i (some sub) }

def pumpExit (s : State prefetch) (i : Nat) (sub : Sub prefetch) : State prefetch :=
  s.setSub i { sub with pump := .exited, out := sub.out.close }

def pumpGoto (s : State prefetch) (i : Nat) (sub : Sub prefetch) (pump : PumpPhase)
    : State prefetch :=
  s.setSub i { sub with pump }

def pumpTake (s : State prefetch) (i : Nat) (sub : Sub prefetch) : Option (State prefetch) :=
  match sub.queue with
  | [] => none
  | d :: queue => some (s.setSub i { sub with queue, pump := .holding d })

def pumpSend (s : State prefetch) (i : Nat) (sub : Sub prefetch) (d : Nat)
    : Option (State prefetch) :=
  match sub.out.trySend d with
  | none => none
  | some out => some (s.setSub i { sub with out, pump := .idle })

def drainClose (s : State prefetch) (i : Nat) (sub : Sub prefetch) : State prefetch :=
  match s.closeCh.recv with
  | none => s.pumpGoto i sub (.drainedClose false)
  | some (_, closeCh) => { s with closeCh }.pumpGoto i sub (.drainedClose true)

-- `forwardCancelReason` drops the reason when one is waiting already
def forwardCancelReason (s : State prefetch) : State prefetch :=
  match s.cancelReasonCh.trySend () with
  | none => s
  | some cancelReasonCh => { s with cancelReasonCh }

def drainCancel (s : State prefetch) (i : Nat) (sub : Sub prefetch) (death : Bool)
    : State prefetch :=
  match s.cancelCh.recv with
  | none => s.pumpGoto i sub (.drainedCancel death)
  | some (none, cancelCh) => { s with cancelCh }.pumpGoto i sub (.drainedCancel true)
  | some (some _, cancelCh) =>
    { s with cancelCh }.forwardCancelReason.pumpGoto i sub (.drainedCancel true)

def readPaused (s : State prefetch) (i : Nat) (sub : Sub prefetch) (death : Bool)
    : State prefetch :=
  if death ∨ s.paused = false then s.pumpGoto i sub .closing else s.pumpExit i sub

def recvCancel (s : State prefetch) (i : Nat) (sub : Sub prefetch) : Option (State prefetch) :=
  match s.cancelCh.recv with
  | none => none
  | some (none, cancelCh) => some ({ s with cancelCh }.pumpGoto i sub .closing)
  | some (some _, cancelCh) =>
    some ({ s with cancelCh }.forwardCancelReason.pumpGoto i sub .closing)

def recvClose (s : State prefetch) (i : Nat) (sub : Sub prefetch) : Option (State prefetch) :=
  match s.closeCh.recv with
  | none => none
  | some (_, closeCh) => some ({ s with closeCh }.pumpGoto i sub .closing)

def pumpStep (s : State prefetch) (i : Nat) (a : PumpAction) : Option (State prefetch) :=
  match s.subs i with
  | none => none
  | some sub =>
    match a, sub.pump with
    | .take, .idle => s.pumpTake i sub
    | .send, .holding d => s.pumpSend i sub d
    | .seeClosed, .idle =>
      if sub.queue = [] ∧ sub.closed then some (s.pumpGoto i sub .sawClosed) else none
    | .drainClose, .sawClosed => some (s.drainClose i sub)
    | .drainCancel, .drainedClose death => some (s.drainCancel i sub death)
    | .readPaused, .drainedCancel death => some (s.readPaused i sub death)
    | .closeDone, .closing => some ({ s with channelDone := true }.pumpExit i sub)
    | .recvCancel, .idle => s.recvCancel i sub
    | .recvClose, .idle => s.recvClose i sub
    | .ctx, .idle => if s.ctxDone then some (s.pumpExit i sub) else none
    | .ctx, .holding _ => if s.ctxDone then some (s.pumpExit i sub) else none
    | _, _ => none

-- a `basic.cancel-ok`: the client closes the stream after the deliveries that are in it
def cancelActive (s : State prefetch) : State prefetch :=
  match s.active with
  | none => s
  | some i =>
    { s with
      active := none
      subs := Function.update s.subs i ((s.subs i).map (fun sub => { sub with closed := true })) }

def resubscribeLocked (s : State prefetch) : State prefetch :=
  { s.setSub s.next ⟨[], false, .idle, .make⟩ with
    next := s.next + 1
    active := some s.next
    mu := .subscribed s.next }

def muStep (s : State prefetch) (a : MuAction) : Option (State prefetch) :=
  match a, s.mu with
  | .pauseBegin, .free => if s.paused then none else some { s with paused := true, mu := .pausing }
  | .pauseOk, .pausing => if s.died then none else some { s.cancelActive with mu := .free }
  | .pauseErr, .pausing => some { s with paused := false, mu := .free }
  | .resumeBegin, .free => if s.paused then some { s with mu := .resuming } else none
  -- the broker refuses a second subscription under the same consumer tag
  | .resumeConsumeOk, .resuming =>
    if s.died ∨ s.active.isSome then none else some s.resubscribeLocked
  | .resumeConsumeErr, .resuming => some { s with mu := .free }
  | .resumeSend, .subscribed i =>
    match s.resubCh.trySend i with
    | none => none
    | some resubCh => some { s with resubCh, mu := .handedOver }
  | .resumeClear, .handedOver => some { s with paused := false, mu := .free }
  | .resumeRollback, .subscribed _ => some { s with mu := .rollingBack }
  | .resumeCancel ok, .rollingBack =>
    if ok then
      if s.died then none else some { s.cancelActive with mu := .free }
    else
      some { s with mu := .free }
  | _, _ => none

def inSelect (s : State prefetch) : Bool :=
  s.loop = .selecting ∨ s.loop = .parked ∨ s.loop = .recovering

def adopt (s : State prefetch) : Option (State prefetch) :=
  match s.resubCh.recv with
  | some (some i, resubCh) => some { s with cur := i, resubCh, loop := .selecting }
  | _ => none

def recvCur (s : State prefetch) : Option (State prefetch) :=
  match s.subs s.cur with
  | none => none
  | some sub =>
    match sub.out.recv with
    | none => none
    | some (some d, out) => some { s.setSub s.cur { sub with out } with loop := .acquiring d }
    | some (none, _) => none

def seeCurClosed (s : State prefetch) : Option (State prefetch) :=
  match s.subs s.cur with
  | none => none
  | some sub =>
    match sub.out.recv with
    | some (none, _) => some { s with loop := .sawClosed }
    | _ => none

def loopStep (s : State prefetch) (a : LoopAction) : Option (State prefetch) :=
  match a, s.loop with
  | .adopt, _ => if s.inSelect then s.adopt else none
  | .recv, .selecting => s.recvCur
  | .acquire, .acquiring d =>
    if s.handlers.length < s.concurrency then
      some { s with
        handlers := s.handlers ++ [d]
        dispatched := s.dispatched ++ [d]
        loop := .selecting }
    else
      none
  | .seeClosed, .selecting => s.seeCurClosed
  | .readPaused, .sawClosed =>
    some { s with loop := if s.paused then .parked else .recovering }
  -- the self-heal comes only after a look at `resubCh`
  | .reopen, .recovering =>
    if s.resubCh.buf = [] ∧ s.paused = false then some { s with loop := .reopened } else none
  | .stop, _ => if s.inSelect ∧ s.ctxDone then some { s with loop := .stopped } else none
  | .brokerCancel, _ =>
    if s.inSelect then
      match s.cancelReasonCh.recv with
      | some (some _, cancelReasonCh) => some { s with cancelReasonCh, loop := .stopped }
      | _ => none
    else
      none
  | _, _ => none

-- a handler that ends after `channelDone` was closed may have its verdict dropped
def envStep (s : State prefetch) (a : EnvAction) : Option (State prefetch) :=
  match a with
  | .deliver d =>
    match s.active, s.active.bind s.subs with
    | some i, some sub =>
      if s.died ∨ d ∈ s.handed then
        none
      else
        some { s.setSub i { sub with queue := sub.queue ++ [d] } with handed := s.handed ++ [d] }
    | _, _ => none
  | .settle d =>
    if d ∈ s.handlers then
      some { s with handlers := s.handlers.erase d, settled := s.settled ++ [d] }
    else
      none
  | .suppress d =>
    if d ∈ s.handlers ∧ s.channelDone then
      some { s with handlers := s.handlers.erase d, suppressed := s.suppressed ++ [d] }
    else
      none
  | .cancelCtx => some { s with ctxDone := true }
  | .die =>
    if s.died then
      none
    else
      match s.closeCh.trySend () with
      | none => none
      | some closeCh =>
        some { s with died := true, closeCh := closeCh.close, cancelCh := s.cancelCh.close }
  | .dieStreams =>
    if s.died then
      some { s with
        active := none
        subs := fun i => (s.subs i).map (fun sub => { sub with queue := [], closed := true }) }
    else
      none
  | .cancelByBroker =>
    if s.died ∨ s.active = none then
      none
    else
      match s.cancelCh.trySend () with
      | none => none
      | some cancelCh => some { s with brokerCancelled := true, cancelCh }
  | .cancelByBrokerStream => if s.brokerCancelled then some s.cancelActive else none

def step (s : State prefetch) : Action → Option (State prefetch)
  | .pump i a => s.pumpStep i a
  | .mu a => s.muStep a
  | .loop a => s.loopStep a
  | .env a => s.envStep a

end State
end Pause
