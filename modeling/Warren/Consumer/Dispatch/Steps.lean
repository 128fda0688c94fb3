import Mathlib.Logic.Function.Basic
import Warren.Consumer.Dispatch.Impl

/-!
`Consumer.dispatch` (`consumer.go`) and the methods of `Delivery` (`delivery.go`) step by step: the
goroutine of `dispatch`, the handler, and every call of `Ack`, `Nack` or `AckIf` that a handler of
`ConsumeRaw` makes, from whatever goroutine. A panic of the handler is an error to `dispatch`, and
one of the codec a delivery that does not decode.
-/

namespace Dispatch

-- how the context of the handler has ended; `channelClosed` is a cancellation with that cause
inductive CtxEnd where
  | deadlineExceeded
  | canceled
  | channelClosed
  deriving DecidableEq, Repr

inductive HandlerPhase where
  | notCalled
  | running
  | returned (handlerErr : Option Err)
  deriving DecidableEq, Repr

inductive VerdictCall where
  | idle
  | checking (v : Verdict)
  | swapping (v : Verdict)
  | sending (v : Verdict)
  | returned
  deriving DecidableEq, Repr

inductive Pc where
  | decoding
  | waiting
  | received (handlerErr : Option Err)
  | settling
  | timingOut
  | draining
  | finished
  deriving DecidableEq, Repr

structure Dispatching where
  delivery : Delivery
  cs : CounterB.RedeliveryCounter
  chanDone : Bool
  ctx : Option CtxEnd
  hCtx : Option CtxEnd
  handler : HandlerPhase
  pc : Pc
  -- `none` is the call of `dispatch` itself
  calls : Option Nat → VerdictCall
  frames : List Verdict
  -- the outer ctx has ended before `dispatch` had the result of the handler
  ctxEnded : Bool

inductive CallAction where
  | check
  | swap
  | send
  deriving DecidableEq, Repr

inductive StepAction where
  | decode
  | handlerReturns (handlerErr : Option Err)
  | recvHandler
  | recvChanDone
  | recvHCtx
  | checkChan
  | settled
  | drained
  | begin (i : Nat) (v : Verdict)
  | call (t : Option Nat) (a : CallAction)
  | close
  | channelClose
  | ctxEnds (e : CtxEnd)
  | handlerTimeout
  deriving DecidableEq, Repr

def verdictOf : Option Err → Verdict
  | none => .ack
  | some err => .nack (.requeue ∈ err.chain)

namespace Dispatching

-- `newDelivery` has `resolved` false, while `closedCh`, `chanDone` and the ctx may be anything
def init (d : Delivery) (cs : CounterB.RedeliveryCounter) (chanDone : Bool) (ctx : Option CtxEnd)
    : Dispatching where
  delivery := { d with resolved := false }
  cs
  chanDone
  ctx
  hCtx := none
  handler := .notCalled
  pc := .decoding
  calls := fun _ => .idle
  frames := []
  ctxEnded := ctx.isSome

def setCall (s : Dispatching) (t : Option Nat) (call : VerdictCall) : Dispatching :=
  { s with calls := Function.update s.calls t call }

def finish (s : Dispatching) : Dispatching :=
  { s with pc := .finished, hCtx := s.hCtx.or (some .canceled) }

-- `raw.Nack(false, false)`, which knows nothing of `resolved`
def rawNack (s : Dispatching) : Dispatching :=
  { s with frames := s.frames ++ [.nack false] }

def decode (c : Consumer) (s : Dispatching) : Dispatching :=
  if s.delivery.decodes then
    if ¬c.brokerAutoAck ∧ 0 < c.maxRedeliveries ∧ c.maxRedeliveries ≤ s.delivery.deathCount then
      s.rawNack.finish
    else
      { s with handler := .running, hCtx := s.ctx, pc := .waiting }
  else if c.brokerAutoAck then
    s.finish
  else
    s.rawNack.finish

def settleVerdict (c : Consumer) (autoAck : Bool) (s : Dispatching) (handlerErr : Option Err)
    : Dispatching :=
  if c.brokerAutoAck then
    s.finish
  else if autoAck then
    match c.applyCounterB s.cs (c.counterBKey s.delivery autoAck) handlerErr with
    | (cs, processedErr) =>
      { s.setCall none (.checking (verdictOf processedErr)) with cs, pc := .settling }
  else
    s.finish

def recvHCtx (c : Consumer) (s : Dispatching) (e : CtxEnd) : Dispatching :=
  if e = .deadlineExceeded ∧ ¬c.brokerAutoAck then
    { s.setCall none (.swapping (.nack (c.timeoutVerdict = .nackRequeue))) with pc := .timingOut }
  else
    { s with pc := .draining }

def callStep (s : Dispatching) (t : Option Nat) (a : CallAction) : Option Dispatching :=
  match a, s.calls t with
  | .check, .checking v =>
    some (s.setCall t (if s.delivery.done then .returned else .swapping v))
  | .swap, .swapping v =>
    if s.delivery.resolved then
      some (s.setCall t .returned)
    else
      some { s.setCall t (.sending v) with delivery := { s.delivery with resolved := true } }
  | .send, .sending v => some { s.setCall t .returned with frames := s.frames ++ [v] }
  | _, _ => none

def step (c : Consumer) (autoAck : Bool) (s : Dispatching) (a : StepAction) : Option Dispatching :=
  match a, s.pc, s.handler with
  | .decode, .decoding, _ => some (s.decode c)
  | .handlerReturns handlerErr, _, .running => some { s with handler := .returned handlerErr }
  | .recvHandler, .waiting, .returned handlerErr => some { s with pc := .received handlerErr }
  | .recvChanDone, .waiting, _ =>
    if c.handlerTimeout ∧ s.chanDone then
      some { s with pc := .draining, hCtx := s.hCtx.or (some .channelClosed) }
    else
      none
  | .recvHCtx, .waiting, _ =>
    match s.hCtx with
    | none => none
    | some e => if c.handlerTimeout then some (s.recvHCtx c e) else none
  | .checkChan, .received handlerErr, _ =>
    if s.chanDone ∧ handlerErr ≠ none then
      some s.finish
    else
      some (s.settleVerdict c autoAck handlerErr)
  | .settled, .settling, _ => if s.calls none = .returned then some s.finish else none
  | .settled, .timingOut, _ =>
    if s.calls none = .returned then some { s with pc := .draining } else none
  | .drained, .draining, .returned _ => some s.finish
  -- only `ConsumeRaw` hands out the delivery
  | .begin i v, _, handler =>
    if autoAck = false ∧ handler ≠ .notCalled ∧ s.calls (some i) = .idle then
      some (s.setCall (some i) (.checking v))
    else
      none
  | .call t a, _, _ => s.callStep t a
  | .close, _, _ => some { s with delivery := { s.delivery with done := true } }
  | .channelClose, _, _ => some { s with chanDone := true }
  | .ctxEnds e, pc, _ =>
    if e = .channelClosed then
      none
    else
      some { s with
        ctx := s.ctx.or (some e)
        hCtx := if pc = .decoding then none else s.hCtx.or (some e)
        ctxEnded := s.ctxEnded || pc = .decoding || pc = .waiting }
  | .handlerTimeout, pc, _ =>
    if c.handlerTimeout ∧ pc ≠ .decoding then
      some { s with hCtx := s.hCtx.or (some .deadlineExceeded) }
    else
      none
  | _, _, _ => none

end Dispatching
end Dispatch
