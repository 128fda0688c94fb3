import Mathlib.Data.List.Basic
import Mathlib.Logic.Function.Basic

/-!
One channel of a `BatchConsumer` (`batch_consumer.go`, `delivery.go`): the loop that collects the
deliveries and flushes them, the handler, the verdicts on a batch or on one of its deliveries, and
the broker. A delivery is its tag; those that wait in `cur.ch` are the tags from `taken` up to
`nextTag`.
-/

namespace BatchConsumer

inductive Verdict where
  | ack
  | nack (requeue : Bool)
  deriving DecidableEq, Repr

inductive HandlerErr where
  | requeue
  | other
  deriving DecidableEq, Repr

-- counter B turns ErrRequeue into ErrMaxRedeliveries when a delivery of the batch exceeds the limit
def applyBatchCounterB (exceeded : Bool) : Option HandlerErr → Option HandlerErr
  | some .requeue => if exceeded then some .other else some .requeue
  | handlerErr => handlerErr

def verdictOf : Option HandlerErr → Verdict
  | none => .ack
  | some handlerErr => .nack (handlerErr = .requeue)

structure Batch where
  deliveries : List Nat
  acked : Bool
  decided : Bool
  deriving DecidableEq, Repr

def highest : List Nat → Option Nat
  | [] => none
  | h :: deliveries => some (deliveries.foldl (fun h d => if h < d then d else h) h)

structure DeliveryCall where
  batch : Nat
  tag : Nat
  verdict : Verdict
  late : Bool
  deriving DecidableEq, Repr

structure Frame where
  -- the batch whose verdict it is, multiple=true, or none for a frame on one delivery
  batch : Option Nat
  tag : Nat
  verdict : Verdict
  late : Bool
  settles : List Nat
  deriving DecidableEq, Repr

structure Core where
  taken : Nat
  pending : List Nat
  batches : List Batch
  resolved : Nat → Bool
  -- calls on a delivery: those before the CAS, and those that won it and are to send their frame
  calls : List DeliveryCall
  sends : List DeliveryCall
  frames : List Frame
  channelClosed : Bool
  left : Bool

namespace Core

def init : Core where
  taken := 1
  pending := []
  batches := []
  resolved := fun _ => false
  calls := []
  sends := []
  frames := []
  channelClosed := false
  left := false

def settled (c : Core) : List Nat := c.frames.flatMap (·.settles)

def emit (c : Core) (f : Frame) : Core :=
  if c.channelClosed then c else { c with frames := c.frames ++ [f] }

def sendOne (c : Core) (tag : Nat) (v : Verdict) (late : Bool) : Core :=
  c.emit ⟨none, tag, v, late, [tag]⟩

-- `ackAll` and `nackAll`: multiple=true settles every unsettled delivery up to the tag
def sendAll (c : Core) (b : Nat) (v : Verdict) : Core :=
  match c.batches[b]? with
  | none => c
  | some batch =>
    match highest batch.deliveries with
    | none => c
    | some h =>
      c.emit ⟨some b, h, v, false, (List.range' 1 h).filter (fun tag => tag ∉ c.settled)⟩

def receive (c : Core) : Core :=
  { c with taken := c.taken + 1, pending := c.pending ++ [c.taken] }

def refuse (c : Core) (requeue : Bool) : Core :=
  sendOne { c with taken := c.taken + 1 } c.taken (.nack requeue) false

def flush (c : Core) : Core :=
  { c with batches := c.batches ++ [⟨c.pending, false, false⟩], pending := [] }

def leave (c : Core) : Core :=
  { c with pending := [], left := true }

def setBatch (c : Core) (b : Nat) (batch : Batch) : Core :=
  { c with batches := c.batches.set b batch }

def claim (c : Core) (b : Nat) (batch : Batch) : Core :=
  c.setBatch b { batch with acked := true, decided := true }

def ackNotify (c : Core) (b : Nat) (batch : Batch) : Core :=
  c.setBatch b { batch with acked := true }

def issue (c : Core) (b : Nat) (batch : Batch) (tag : Nat) (v : Verdict) : Core :=
  { c with calls := ⟨b, tag, v, batch.deliveries.all (fun x => x ∈ c.settled)⟩ :: c.calls }

def compareAndSwap (c : Core) (call : DeliveryCall) : Core :=
  if c.resolved call.tag then
    { c with calls := c.calls.erase call }
  else
    { c with
      calls := c.calls.erase call
      resolved := Function.update c.resolved call.tag true
      sends := call :: c.sends }

def send (c : Core) (call : DeliveryCall) : Core :=
  sendOne { c with sends := c.sends.erase call } call.tag call.verdict call.late

end Core

inductive FlushPhase where
  | handling
  | timedOut
  | timeoutVerdict
  | verdict (handlerErr : Option HandlerErr)
  | sending (v : Verdict) (drain : Bool)
  | draining
  deriving DecidableEq, Repr

inductive LoopPhase where
  | selecting
  | received
  -- `last` is the flush on the way out
  | flushing (b : Nat) (last : Bool) (phase : FlushPhase)
  | requeueing
  | exited
  deriving DecidableEq, Repr

structure State extends Core where
  size : Nat
  handlerTimeout : Bool
  timeoutRequeue : Bool
  ctxDone : Bool
  consumerClosed : Bool
  nextTag : Nat
  loop : LoopPhase
  handlerDone : Option (Option HandlerErr)
  batchSends : List (Nat × Verdict)
  notifies : List Nat

inductive Received where
  | valid
  | undecodable
  | deathExceeded
  deriving DecidableEq, Repr

inductive LoopAction where
  | receive (kind : Received)
  | checkSize
  | flushTimer
  | ctxDone
  | leave
  | requeueOne
  | requeueEnd
  deriving DecidableEq, Repr

inductive FlushAction where
  | handlerDone
  | deadline
  | ctxDone
  | readAcked
  | timeoutVerdict (exceeded : Bool)
  | applyBatchVerdict (exceeded : Bool)
  | send
  | drain
  deriving DecidableEq, Repr

inductive UserAction where
  | batchVerdict (b : Nat) (v : Verdict)
  | batchSend (b : Nat) (v : Verdict)
  | deliveryVerdict (b tag : Nat) (v : Verdict)
  | compareAndSwap (call : DeliveryCall)
  | deliverySend (call : DeliveryCall)
  | ackNotify (b : Nat)
  | handlerReturn (handlerErr : Option HandlerErr)
  deriving DecidableEq, Repr

inductive Action where
  | loop (a : LoopAction)
  | flush (a : FlushAction)
  | user (a : UserAction)
  | deliver
  | closeChannel
  | cancelCtx
  | close
  deriving DecidableEq, Repr

namespace State

def init (size : Nat) (handlerTimeout timeoutRequeue : Bool) : State where
  toCore := .init
  size := size
  handlerTimeout := handlerTimeout
  timeoutRequeue := timeoutRequeue
  ctxDone := false
  consumerClosed := false
  nextTag := 1
  loop := .selecting
  handlerDone := none
  batchSends := []
  notifies := []

def flushed (last : Bool) : LoopPhase :=
  if last then .requeueing else .selecting

def flush (s : State) (last : Bool) : State :=
  if s.pending = [] then
    { s with loop := flushed last }
  else
    { s with
      toCore := s.toCore.flush
      handlerDone := none
      loop := .flushing s.batches.length last .handling }

def receive (s : State) (kind : Received) : Option State :=
  if s.taken < s.nextTag then
    match kind with
    | .undecodable => some { s with toCore := s.toCore.refuse false }
    | .deathExceeded => some { s with toCore := s.toCore.refuse false }
    | .valid => some { s with toCore := s.toCore.receive, loop := .received }
  else
    none

def checkSize (s : State) : State :=
  if s.size ≤ s.pending.length then s.flush false else { s with loop := .selecting }

-- `requeueUndispatched` stops when a nack fails
def requeueOne (s : State) : Option State :=
  if s.taken < s.nextTag then
    some { s with
      toCore := s.toCore.refuse true
      loop := if s.channelClosed then .exited else .requeueing }
  else
    none

def loopStep (s : State) (a : LoopAction) : Option State :=
  match s.loop, a with
  | .selecting, .receive kind => s.receive kind
  | .received, .checkSize => some s.checkSize
  | .selecting, .flushTimer => some (s.flush false)
  | .selecting, .ctxDone => if s.ctxDone then some (s.flush true) else none
  | .selecting, .leave => some { s with toCore := s.toCore.leave, loop := .exited }
  | .requeueing, .requeueOne => s.requeueOne
  | .requeueing, .requeueEnd => some { s with loop := .exited }
  | _, _ => none

def flushStep (s : State) (b : Nat) (last : Bool) (phase : FlushPhase) (batch : Batch)
    (a : FlushAction) : Option State :=
  match phase, a with
  | .handling, .handlerDone =>
    match s.handlerDone with
    | none => none
    | some handlerErr => some { s with loop := .flushing b last (.verdict handlerErr) }
  | .handling, .deadline =>
    if s.handlerTimeout then some { s with loop := .flushing b last .timedOut } else none
  | .handling, .ctxDone =>
    if s.handlerTimeout ∧ s.ctxDone then
      some { s with loop := .flushing b last .draining }
    else
      none
  | .timedOut, .readAcked =>
    if batch.acked then
      some { s with loop := .flushing b last .draining }
    else
      some { s with loop := .flushing b last .timeoutVerdict }
  | .timeoutVerdict, .timeoutVerdict exceeded =>
    if batch.acked then
      some { s with loop := .flushing b last .draining }
    else
      some { s with
        toCore := s.toCore.claim b batch
        loop := .flushing b last (.sending (.nack (s.timeoutRequeue && !exceeded)) true) }
  | .verdict handlerErr, .applyBatchVerdict exceeded =>
    if batch.acked then
      some { s with loop := flushed last }
    else
      some { s with
        toCore := s.toCore.claim b batch
        loop := .flushing b last
          (.sending (verdictOf (applyBatchCounterB exceeded handlerErr)) false) }
  | .sending v drain, .send =>
    some { s with
      toCore := s.toCore.sendAll b v
      loop := if drain then .flushing b last .draining else flushed last }
  | .draining, .drain =>
    if s.handlerDone.isSome then some { s with loop := flushed last } else none
  | _, _ => none

/-!
Whoever holds a batch that was flushed may issue verdicts on it and on its deliveries, also after
the handler has returned.
-/

def batchVerdict (s : State) (b : Nat) (v : Verdict) (batch : Batch) : State :=
  if batch.acked then
    s
  else
    { s with toCore := s.toCore.claim b batch, batchSends := (b, v) :: s.batchSends }

def deliveryVerdict (s : State) (b tag : Nat) (v : Verdict) (batch : Batch) : Option State :=
  if tag ∈ batch.deliveries then
    if s.consumerClosed then some s else some { s with toCore := s.toCore.issue b batch tag v }
  else
    none

def userStep (s : State) : UserAction → Option State
  | .batchVerdict b v => s.batches[b]?.map (s.batchVerdict b v)
  | .batchSend b v =>
    if (b, v) ∈ s.batchSends then
      some { s with toCore := s.toCore.sendAll b v, batchSends := s.batchSends.erase (b, v) }
    else
      none
  | .deliveryVerdict b tag v => s.batches[b]?.bind (s.deliveryVerdict b tag v)
  | .compareAndSwap call =>
    if call ∈ s.calls then some { s with toCore := s.toCore.compareAndSwap call } else none
  | .deliverySend call =>
    if call ∈ s.sends then
      some { s with
        toCore := s.toCore.send call
        notifies := if s.channelClosed then s.notifies else call.batch :: s.notifies }
    else
      none
  | .ackNotify b =>
    match s.batches[b]? with
    | none => none
    | some batch =>
      if b ∈ s.notifies then
        some { s with toCore := s.toCore.ackNotify b batch, notifies := s.notifies.erase b }
      else
        none
  | .handlerReturn handlerErr =>
    match s.loop, s.handlerDone with
    | .flushing _ _ _, none => some { s with handlerDone := some handlerErr }
    | _, _ => none

def step (s : State) : Action → Option State
  | .loop a => s.loopStep a
  | .flush a =>
    match s.loop with
    | .flushing b last phase => s.batches[b]?.bind (fun batch => s.flushStep b last phase batch a)
    | _ => none
  | .user a => s.userStep a
  | .deliver => if s.channelClosed then none else some { s with nextTag := s.nextTag + 1 }
  | .closeChannel => some { s with channelClosed := true }
  | .cancelCtx => some { s with ctxDone := true }
  | .close => some { s with consumerClosed := true }

end State
end BatchConsumer
