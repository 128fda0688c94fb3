import Mathlib.Logic.Function.Basic
import Warren.Base.Chan

/-!
The reconnect barrier of one socket (`runBarrier` in `connection.go`) with the consume loops and
delivery pumps of the consumers that are pinned to the socket (`runConsume` in `consumer.go`,
`BatchConsumer.Consume` in `batch_consumer.go`), interleaved at their channel operations. Deliveries
are left out.
-/

namespace Barrier

open Function

inductive Kind where
  | consumer
  | batchConsumer
  deriving DecidableEq, Repr

-- `other` stands for the topology redeclare and for the publisher pool's hook
inductive Hook where
  | other (id : Nat)
  | resubscribe (c : Nat)
  deriving DecidableEq, Repr

inductive LoopPhase where
  | opening
  | selecting
  | recovering
  | returned
  deriving DecidableEq, Repr

structure Consumer where
  kind : Kind
  ctxDone : Bool
  phase : LoopPhase
  cur : Option Nat
  resubCh : Chan Nat 1
  cancelReasonCh : Chan Unit 1
  deriving DecidableEq, Repr

inductive PumpCtx where
  | consume
  | hook (b : Nat)
  deriving DecidableEq, Repr

inductive Pump where
  | running
  | endedByStream
  | endedByCtx
  deriving DecidableEq, Repr

structure Sub where
  consumer : Nat
  ctx : PumpCtx
  streamEnded : Bool
  cancelled : Bool
  pump : Pump
  deriving DecidableEq, Repr

inductive HookPc where
  | entered
  | opening
  | sending (sub : Nat)
  deriving DecidableEq, Repr

-- `rest` are the hooks that the goroutine still has to run, it is inside the first of them
structure HookRun where
  rest : List Hook
  pc : HookPc
  err : Option Hook
  hookCtxDone : Bool
  deriving DecidableEq, Repr

inductive Event where
  | returned (c : Nat)
  | barrierStart (b : Nat)
  | consume (b c : Nat)
  | capped (b c : Nat)
  | degraded (b c : Nat)
  deriving DecidableEq, Repr

structure State where
  hooks : List Hook
  consumers : Nat → Option Consumer
  subs : Nat → Option Sub
  nextSub : Nat
  barriers : Nat → Option HookRun
  nextBarrier : Nat
  active : Option Nat
  reconnecting : Bool
  degraded : Bool
  ctxDone : Bool
  exited : Bool
  log : List Event

-- how far `openDeliveryCh` gets: the last result is a `basic.consume` that the broker refuses
inductive OpenResult where
  | ok
  | channelErr
  | qosErr
  | consumeErr
  deriving DecidableEq, Repr

inductive LoopAction where
  | start (kind : Kind)
  | cancelCtx
  | openFirst (r : OpenResult)
  | stop
  | adopt
  | brokerCancel
  | closed
  | reopen (r : OpenResult)
  deriving DecidableEq, Repr

inductive PumpAction where
  | streamEnd (cancelled : Bool)
  | stream
  | ctx
  deriving DecidableEq, Repr

inductive HookAction where
  | otherReturn (ok : Bool)
  | jitterElapsed
  | jitterCancelled
  | openSub (r : OpenResult)
  | send
  | sendCancelled
  deriving DecidableEq, Repr

inductive SuperAction where
  | registerHook (id : Nat)
  | socketLost
  | reconnect
  | reconnectFailed
  | runBarrier
  | done
  | shutdown
  | cap
  | close
  deriving DecidableEq, Repr

inductive Action where
  | loop (c : Nat) (a : LoopAction)
  | pump (i : Nat) (a : PumpAction)
  | hook (b : Nat) (a : HookAction)
  | super (a : SuperAction)
  deriving DecidableEq, Repr

namespace State

def init : State :=
  ⟨[], fun _ => none, fun _ => none, 0, fun _ => none, 0, none, false, false, false, false, []⟩

def setConsumer (s : State) (c : Nat) (k : Consumer) : State :=
  { s with consumers := update s.consumers c (some k) }

def setSub (s : State) (i : Nat) (sub : Sub) : State :=
  { s with subs := update s.subs i (some sub) }

def setBarrier (s : State) (b : Nat) (run : HookRun) : State :=
  { s with barriers := update s.barriers b (some run) }

def emit (s : State) (e : Event) : State :=
  { s with log := s.log ++ [e] }

def startPump (s : State) (c : Nat) (ctx : PumpCtx) : State :=
  { s.setSub s.nextSub ⟨c, ctx, false, false, .running⟩ with nextSub := s.nextSub + 1 }

def endStreams (s : State) : State :=
  { s with subs := fun i => (s.subs i).map (fun sub => { sub with streamEnded := true }) }

def loopStart (s : State) (c : Nat) (kind : Kind) : Option State :=
  match s.consumers c with
  | some _ => none
  | none =>
    some { s.setConsumer c ⟨kind, false, .opening, none, .make, .make⟩ with
      hooks := s.hooks ++ [.resubscribe c] }

def loopReturn (s : State) (c : Nat) (k : Consumer) : State :=
  (s.setConsumer c { k with phase := .returned }).emit (.returned c)

def loopOpenFirst (s : State) (c : Nat) (k : Consumer) (r : OpenResult) : Option State :=
  if k.phase = .opening then
    match r with
    | .ok =>
      some ((s.startPump c .consume).setConsumer c
        { k with phase := .selecting, cur := some s.nextSub })
    | _ => some (s.loopReturn c k)
  else
    none

def inSelect (k : Consumer) : Bool :=
  k.phase = .selecting ∨ k.phase = .recovering

def loopStop (s : State) (c : Nat) (k : Consumer) : Option State :=
  if inSelect k ∧ k.ctxDone then some (s.loopReturn c k) else none

def loopAdopt (s : State) (c : Nat) (k : Consumer) : Option State :=
  if inSelect k then
    match k.resubCh.recv with
    | some (some sub, resubCh) =>
      some (s.setConsumer c { k with phase := .selecting, cur := some sub, resubCh })
    | _ => none
  else
    none

def loopBrokerCancel (s : State) (c : Nat) (k : Consumer) : Option State :=
  if inSelect k then
    match k.cancelReasonCh.recv with
    | some (some _, cancelReasonCh) => some (s.loopReturn c { k with cancelReasonCh })
    | _ => none
  else
    none

def loopClosed (s : State) (c : Nat) (k : Consumer) : Option State :=
  match k.phase, k.cur.bind s.subs with
  | .selecting, some sub =>
    if sub.pump = .running then none else some (s.setConsumer c { k with phase := .recovering })
  | _, _ => none

-- only `recoverDeliveryChannel` reopens the channel itself, a batch consumer waits for the hook
def loopReopen (s : State) (c : Nat) (k : Consumer) (r : OpenResult) : Option State :=
  if k.kind = .consumer ∧ k.phase = .recovering ∧ s.reconnecting = false then
    match r with
    | .ok =>
      some ((s.startPump c .consume).setConsumer c
        { k with phase := .selecting, cur := some s.nextSub })
    | _ => some s
  else
    none

def loopStep (s : State) (c : Nat) (a : LoopAction) : Option State :=
  match a, s.consumers c with
  | .start kind, _ => s.loopStart c kind
  | _, none => none
  | .cancelCtx, some k => some (s.setConsumer c { k with ctxDone := true })
  | .openFirst r, some k => s.loopOpenFirst c k r
  | .stop, some k => s.loopStop c k
  | .adopt, some k => s.loopAdopt c k
  | .brokerCancel, some k => s.loopBrokerCancel c k
  | .closed, some k => s.loopClosed c k
  | .reopen r, some k => s.loopReopen c k r

def pumpCtxDone (s : State) (sub : Sub) : Bool :=
  match sub.ctx with
  | .consume => (s.consumers sub.consumer).any (·.ctxDone)
  | .hook b => (s.barriers b).any (·.hookCtxDone)

def forwardCancelReason (s : State) (c : Nat) : State :=
  match s.consumers c with
  | none => s
  | some k =>
    match k.cancelReasonCh.trySend () with
    | none => s
    | some cancelReasonCh => s.setConsumer c { k with cancelReasonCh }

def pumpStep (s : State) (i : Nat) (a : PumpAction) : Option State :=
  match a, s.subs i with
  | _, none => none
  | .streamEnd cancelled, some sub =>
    if sub.streamEnded then none else some (s.setSub i { sub with streamEnded := true, cancelled })
  | .stream, some sub =>
    if sub.pump = .running ∧ sub.streamEnded then
      let s := s.setSub i { sub with pump := .endedByStream }
      some (if sub.cancelled then s.forwardCancelReason sub.consumer else s)
    else
      none
  | .ctx, some sub =>
    if sub.pump = .running ∧ s.pumpCtxDone sub then
      some (s.setSub i { sub with pump := .endedByCtx })
    else
      none

def hookReturn (s : State) (b : Nat) (run : HookRun) (rest : List Hook) : State :=
  s.setBarrier b { run with rest, pc := .entered }

def hookFail (s : State) (b : Nat) (run : HookRun) (hook : Hook) : State :=
  s.setBarrier b { run with err := some hook }

-- `Consumer` opens the new subscription under its own context, `BatchConsumer` under `hookCtx`
def hookOpenSub (s : State) (b : Nat) (run : HookRun) (c : Nat) (r : OpenResult) : Option State :=
  match s.consumers c with
  | none => none
  | some k =>
    let ctx := match k.kind with
      | .consumer => .consume
      | .batchConsumer => .hook b
    match r with
    | .ok =>
      some (((s.startPump c ctx).setBarrier b { run with pc := .sending s.nextSub }).emit
        (.consume b c))
    | .consumeErr => some ((s.hookFail b run (.resubscribe c)).emit (.consume b c))
    | _ => some (s.hookFail b run (.resubscribe c))

def hookSend (s : State) (b : Nat) (run : HookRun) (c sub : Nat) (rest : List Hook)
    : Option State :=
  match s.consumers c with
  | none => none
  | some k =>
    match k.resubCh.trySend sub with
    | none => none
    | some resubCh => some ((s.setConsumer c { k with resubCh }).hookReturn b run rest)

def hookStep (s : State) (b : Nat) (a : HookAction) : Option State :=
  match s.barriers b with
  | none => none
  | some run =>
    if run.err.isSome then
      none
    else
      match a, run.rest, run.pc with
      | .otherReturn true, .other _ :: rest, _ => some (s.hookReturn b run rest)
      | .otherReturn false, .other id :: _, _ => some (s.hookFail b run (.other id))
      | .jitterElapsed, .resubscribe _ :: _, .entered =>
        some (s.setBarrier b { run with pc := .opening })
      | .jitterCancelled, .resubscribe c :: _, .entered =>
        if run.hookCtxDone then some (s.hookFail b run (.resubscribe c)) else none
      | .openSub r, .resubscribe c :: _, .opening => s.hookOpenSub b run c r
      | .send, .resubscribe c :: rest, .sending sub => s.hookSend b run c sub rest
      | .sendCancelled, .resubscribe c :: _, .sending _ =>
        if run.hookCtxDone then some (s.hookFail b run (.resubscribe c)) else none
      | _, _, _ => none

def cancelHookCtx (s : State) (b : Nat) (run : HookRun) : State :=
  { s.setBarrier b { run with hookCtxDone := true } with active := none }

def hookErr (run : HookRun) : Option (Option Hook) :=
  match run.err, run.rest with
  | some hook, _ => some (some hook)
  | none, [] => some none
  | none, _ :: _ => none

def runBarrier (s : State) : State :=
  { s with
    barriers := update s.barriers s.nextBarrier
      (some ⟨s.hooks, .entered, none, s.ctxDone⟩)
    nextBarrier := s.nextBarrier + 1
    active := some s.nextBarrier
    log := s.log ++ [.barrierStart s.nextBarrier] }

def barrierDone (s : State) (b : Nat) (run : HookRun) : Option State :=
  match hookErr run with
  | none => none
  | some err =>
    let s := { s.cancelHookCtx b run with reconnecting := false, degraded := err.isSome }
    match err with
    | some (.resubscribe c) => some (s.emit (.degraded b c))
    | _ => some s

def barrierCap (s : State) (b : Nat) (run : HookRun) : State :=
  let s := (s.cancelHookCtx b run).endStreams
  match run.err, run.rest, run.pc with
  | none, .resubscribe c :: _, .sending _ => s.emit (.capped b c)
  | _, _, _ => s

def superStep (s : State) (a : SuperAction) : Option State :=
  match a, s.active, s.active.bind s.barriers with
  | .registerHook id, _, _ => some { s with hooks := s.hooks ++ [.other id] }
  | .socketLost, _, _ => some s.endStreams
  | .reconnect, none, _ =>
    if s.ctxDone ∨ s.exited then none else some { s with reconnecting := true }
  | .reconnectFailed, none, _ =>
    if s.reconnecting then some { s with reconnecting := false, exited := true } else none
  | .runBarrier, none, _ => if s.reconnecting ∧ ¬s.exited then some s.runBarrier else none
  | .done, some b, some run => s.barrierDone b run
  | .shutdown, some b, some run =>
    if s.ctxDone then some { s.cancelHookCtx b run with reconnecting := false } else none
  | .cap, some b, some run => some (s.barrierCap b run)
  | .close, _, _ =>
    some { s with
      ctxDone := true
      barriers := fun b => (s.barriers b).map (fun run => { run with hookCtxDone := true }) }
  | _, _, _ => none

def step (s : State) : Action → Option State
  | .loop c a => s.loopStep c a
  | .pump i a => s.pumpStep i a
  | .hook b a => s.hookStep b a
  | .super a => s.superStep a

end State
end Barrier
