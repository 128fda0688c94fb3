import Warren.Base.Run
import Warren.Consumer.CounterB.Batch
import Warren.Errors.Impl

/-!
The loop of `BatchConsumer.Consume` (`batch_consumer.go`) over all its subscriptions: the deliveries
that it collects, the flush timer, the ways in which it discards, and `flush` with the contexts that
it hands to the handler. The verdicts of a handler only set `acked` here.
-/

namespace BatchLoop

open CounterB (RedeliveryCounter)
open Dispatch (Err Verdict)
open Errors (CtxErr)

-- the builder turns a size of zero into 100
structure Consumer extends CounterB.BatchConsumer where
  size : Nat
  size_pos : 0 < size
  -- FlushAfter and HandlerTimeout are not zero
  flushAfter : Bool
  handlerTimeout : Bool
  timeoutVerdict : Dispatch.TimeoutVerdict

structure Delivery where
  sub : Nat
  raw : Dispatch.Delivery
  deriving DecidableEq, Repr

-- it decodes, and counter A lets it pass
def Consumer.accepts (c : Consumer) (d : Delivery) : Bool :=
  d.raw.decodes && !(0 < c.maxRedeliveries && c.maxRedeliveries ≤ d.raw.deathCount)

/-!
What the loop has collected from its subscription `cur`. `received`, `flushed` and `batches` are
kept for the statements only.
-/

structure Collected where
  cur : Nat
  pending : List Delivery
  flushTimer : Option Bool
  received : List Delivery
  flushed : List (List Delivery)
  batches : List (List Delivery)

namespace Collected

def init : Collected where
  cur := 0
  pending := []
  flushTimer := none
  received := []
  flushed := []
  batches := []

def resetFlushTimer (c : Consumer) (k : Collected) : Collected :=
  if c.flushAfter ∧ k.flushTimer = none then { k with flushTimer := some false } else k

def stopFlushTimer (k : Collected) : Collected := { k with flushTimer := none }

def discard (k : Collected) : Collected :=
  { k.stopFlushTimer with pending := [], received := [], flushed := [] }

def switchTo (k : Collected) (sub : Nat) : Collected := { k with cur := sub }

def receive (c : Consumer) (k : Collected) (d : Delivery) : Collected :=
  let k := { k with received := k.received ++ [d] }
  if c.accepts d then
    { k with pending := k.pending ++ [d] }.resetFlushTimer c
  else
    k

def flush (k : Collected) : Collected :=
  { k.stopFlushTimer with
    pending := []
    flushed := k.flushed ++ [k.pending]
    batches := k.batches ++ [k.pending] }

end Collected

structure Frame where
  -- the batch, by its number, or none for a nack of one delivery
  batch : Option Nat
  deliveryTag : UInt64
  verdict : Verdict
  deriving DecidableEq, Repr

inductive FlushPhase where
  | handling
  | verdict (handlerErr : Option Err)
  | timedOut
  | timeoutVerdict
  | sending (v : Verdict) (drain : Bool)
  | draining
  deriving DecidableEq, Repr

structure Flushing where
  batch : List Delivery
  last : Bool
  hCtx : Option CtxErr
  handlerDone : Option (Option Err)
  acked : Bool
  phase : FlushPhase
  deriving DecidableEq, Repr

inductive Loop where
  | selecting
  | appended
  | flushing (f : Flushing)
  | closed
  | requeueing
  | returned
  deriving DecidableEq, Repr

structure Sub where
  buffer : List Dispatch.Delivery
  streamClosed : Bool
  channelClosed : Bool
  deriving DecidableEq, Repr

structure State extends Collected where
  ctx : Option CtxErr
  subs : Nat → Sub
  nextSub : Nat
  hooked : List Nat
  resubCh : Option Nat
  cancelReasonCh : Bool
  counterState : RedeliveryCounter
  loop : Loop
  frames : List Frame
  -- what the verdict on a batch was computed from; kept for the statements only
  decisions : List (Nat × Option Err × RedeliveryCounter)
  timeouts : List Nat

inductive LoopAction where
  | ctxDone
  | resub
  | cancelled
  | flushTimer
  | receive
  | streamClosed
  | checkSize
  | requeueOne
  | requeueEnd
  deriving DecidableEq, Repr

inductive FlushAction where
  | handlerDone
  | hCtxDone
  | readAcked
  | timeoutVerdict
  | applyBatchVerdict
  | send
  | drain
  deriving DecidableEq, Repr

inductive EnvAction where
  | deliver (sub : Nat) (d : Dispatch.Delivery)
  | closeStream (sub : Nat)
  | closeChannel (sub : Nat)
  -- a hook stores a new counter, opens a subscription and sends it on `resubCh`
  | resetCounter
  | openSub
  | sendSub (sub : Nat)
  | brokerCancel
  | ctxEnds (e : CtxErr)
  | timerFires
  | handlerTimeout
  | handlerReturns (handlerErr : Option Err)
  | acked
  deriving DecidableEq, Repr

inductive Action where
  | loop (a : LoopAction)
  | flush (a : FlushAction)
  | env (a : EnvAction)
  deriving DecidableEq, Repr

namespace State

def init : State where
  toCollected := .init
  ctx := none
  subs := fun _ => ⟨[], false, false⟩
  nextSub := 1
  hooked := []
  resubCh := none
  cancelReasonCh := false
  counterState := .new
  loop := .selecting
  frames := []
  decisions := []
  timeouts := []

def batchNo (s : State) : Nat := s.batches.length - 1

def emit (s : State) (sub : Nat) (f : Frame) : State :=
  if (s.subs sub).channelClosed then s else { s with frames := s.frames ++ [f] }

def nackOne (s : State) (d : Delivery) (requeue : Bool) : State :=
  s.emit d.sub ⟨none, d.raw.deliveryTag, .nack requeue⟩

def highest : List Delivery → Option Delivery
  | [] => none
  | h :: batch =>
    some (batch.foldl (fun h d => if h.raw.deliveryTag < d.raw.deliveryTag then d else h) h)

def sendAll (s : State) (batch : List Delivery) (v : Verdict) : State :=
  match highest batch with
  | none => s
  | some h => s.emit h.sub ⟨some s.batchNo, h.raw.deliveryTag, v⟩

def afterFlush (last : Bool) : Loop :=
  if last then .requeueing else .selecting

def flush (s : State) (last : Bool) : State :=
  if s.pending = [] then
    { s with loop := afterFlush last }
  else
    { s with
      toCollected := s.toCollected.flush
      loop := .flushing {
        batch := s.pending
        last
        hCtx := s.ctx
        handlerDone := none
        acked := false
        phase := .handling } }

def popBuffer (s : State) : Option (Dispatch.Delivery × State) :=
  match (s.subs s.cur).buffer with
  | [] => none
  | d :: buffer =>
    some (d, { s with subs := Function.update s.subs s.cur { s.subs s.cur with buffer } })

def receive (c : Consumer) (s : State) : Option State :=
  match s.popBuffer with
  | none => none
  | some (raw, s) =>
    let d := ⟨s.cur, raw⟩
    let s := { s with toCollected := s.toCollected.receive c d }
    if c.accepts d then some { s with loop := .appended } else some (s.nackOne d false)

def checkSize (c : Consumer) (s : State) : State :=
  if c.size ≤ s.pending.length then s.flush false else { s with loop := .selecting }

def discard (s : State) (loop : Loop) : State :=
  { s with toCollected := s.toCollected.discard, loop }

def resub (s : State) : Option State :=
  match s.resubCh with
  | none => none
  | some sub =>
    some { s with toCollected := s.toCollected.switchTo sub, resubCh := none, loop := .selecting }

def requeueOne (s : State) : Option State :=
  match s.popBuffer with
  | none => none
  | some (raw, s) =>
    let s := s.nackOne ⟨s.cur, raw⟩ true
    some { s with loop := if (s.subs s.cur).channelClosed then .returned else .requeueing }

def loopStep (c : Consumer) (s : State) (a : LoopAction) : Option State :=
  match s.loop, a with
  | .selecting, .ctxDone => if s.ctx.isSome then some (s.flush true) else none
  | .selecting, .resub => (s.discard .selecting).resub
  | .selecting, .cancelled =>
    if s.cancelReasonCh then
      some { s.discard .returned with cancelReasonCh := false }
    else
      none
  | .selecting, .flushTimer =>
    if s.flushTimer = some true then
      some ({ s with toCollected := s.toCollected.stopFlushTimer }.flush false)
    else
      none
  | .selecting, .receive => s.receive c
  | .selecting, .streamClosed =>
    if (s.subs s.cur).streamClosed ∧ (s.subs s.cur).buffer = [] then
      some (s.discard .closed)
    else
      none
  | .appended, .checkSize => some (s.checkSize c)
  | .closed, .ctxDone => if s.ctx.isSome then some { s with loop := .returned } else none
  | .closed, .cancelled =>
    if s.cancelReasonCh then
      some { s with loop := .returned, cancelReasonCh := false }
    else
      none
  | .closed, .resub => s.resub
  | .requeueing, .requeueOne => s.requeueOne
  | .requeueing, .requeueEnd =>
    if (s.subs s.cur).buffer = [] then some { s with loop := .returned } else none
  | _, _ => none

def goto (s : State) (f : Flushing) (phase : FlushPhase) : State :=
  { s with loop := .flushing { f with phase } }

def verdictOf : Option Err → Verdict
  | none => .ack
  | some err => .nack (.requeue ∈ err.chain)

-- the part of `applyBatchVerdict` that follows the test of `acked`
def applyBatchVerdict (c : Consumer) (s : State) (f : Flushing) (handlerErr : Option Err) : State :=
  match c.applyBatchCounterB s.counterState (f.batch.map (·.raw)) handlerErr with
  | (counterState, processedErr) =>
    { s.goto { f with acked := true } (.sending (verdictOf processedErr) false) with
      counterState
      decisions := s.decisions ++ [(s.batchNo, handlerErr, s.counterState)] }

-- ErrRequeue goes through counter B for a timeout that requeues
def timeoutVerdict (c : Consumer) (s : State) (f : Flushing) : State :=
  match c.timeoutVerdict with
  | .nackNoRequeue =>
    if f.acked then
      s.goto f .draining
    else
      { s.goto { f with acked := true } (.sending (.nack false) true) with
        timeouts := s.timeouts ++ [s.batchNo] }
  | .nackRequeue =>
    match c.applyBatchCounterB s.counterState (f.batch.map (·.raw)) (some ⟨[.requeue]⟩) with
    | (counterState, syntheticErr) =>
      if f.acked then
        { s.goto f .draining with counterState }
      else
        { s.goto { f with acked := true } (.sending (verdictOf syntheticErr) true) with
          counterState
          timeouts := s.timeouts ++ [s.batchNo] }

def flushStep (c : Consumer) (s : State) (f : Flushing) (a : FlushAction) : Option State :=
  match f.phase, a with
  | .handling, .handlerDone =>
    match f.handlerDone with
    | none => none
    | some handlerErr => some (s.goto f (.verdict handlerErr))
  | .handling, .hCtxDone =>
    if c.handlerTimeout then
      match f.hCtx with
      | none => none
      | some .deadlineExceeded => some (s.goto f .timedOut)
      | some .canceled => some (s.goto f .draining)
    else
      none
  | .verdict handlerErr, .applyBatchVerdict =>
    if f.acked then
      some { s with loop := afterFlush f.last }
    else
      some (s.applyBatchVerdict c f handlerErr)
  | .timedOut, .readAcked =>
    some (s.goto f (if f.acked then .draining else .timeoutVerdict))
  | .timeoutVerdict, .timeoutVerdict => some (s.timeoutVerdict c f)
  | .sending v drain, .send =>
    let s := s.sendAll f.batch v
    some (if drain then s.goto f .draining else { s with loop := afterFlush f.last })
  | .draining, .drain =>
    if f.handlerDone.isSome then some { s with loop := afterFlush f.last } else none
  | _, _ => none

def setSub (s : State) (n : Nat) (sub : Sub) : State :=
  { s with subs := Function.update s.subs n sub }

def duringFlush (s : State) (g : Flushing → Option Flushing) : Option State :=
  match s.loop with
  | .flushing f => (g f).map (fun f => { s with loop := .flushing f })
  | _ => none

def ctxEnds (s : State) (e : CtxErr) : State :=
  { s with
    ctx := s.ctx.or (some e)
    loop :=
      match s.loop with
      | .flushing f => .flushing { f with hCtx := f.hCtx.or (some e) }
      | loop => loop }

def envStep (c : Consumer) (s : State) : EnvAction → Option State
  | .deliver n d =>
    if n < s.nextSub ∧ (s.subs n).streamClosed = false then
      some (s.setSub n { s.subs n with buffer := (s.subs n).buffer ++ [d] })
    else
      none
  | .closeStream n => some (s.setSub n { s.subs n with streamClosed := true })
  | .closeChannel n => some (s.setSub n { s.subs n with channelClosed := true })
  | .resetCounter => some { s with counterState := .new }
  | .openSub => some { s with nextSub := s.nextSub + 1, hooked := s.hooked ++ [s.nextSub] }
  | .sendSub n =>
    if n ∈ s.hooked ∧ s.resubCh = none then
      some { s with hooked := s.hooked.erase n, resubCh := some n }
    else
      none
  | .brokerCancel => some { s with cancelReasonCh := true }
  | .ctxEnds e => some (s.ctxEnds e)
  | .timerFires =>
    if s.flushTimer = some false then some { s with flushTimer := some true } else none
  | .handlerTimeout =>
    if c.handlerTimeout then
      s.duringFlush (fun f => some { f with hCtx := f.hCtx.or (some .deadlineExceeded) })
    else
      none
  | .handlerReturns handlerErr =>
    s.duringFlush (fun f =>
      if f.handlerDone = none then some { f with handlerDone := some handlerErr } else none)
  | .acked => s.duringFlush (fun f => some { f with acked := true })

def step (c : Consumer) (s : State) : Action → Option State
  | .loop a => s.loopStep c a
  | .flush a =>
    match s.loop with
    | .flushing f => s.flushStep c f a
    | _ => none
  | .env a => s.envStep c a

end State
end BatchLoop
