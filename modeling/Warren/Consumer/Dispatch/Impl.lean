import Warren.Base.Run
import Warren.Consumer.CounterB.Impl

/-!
`Consumer.dispatch` (`consumer.go`): how one delivery is handled, and which ack or nack is sent.
What the codec and the x-death headers say of a delivery is part of it here.
-/

namespace Dispatch

open CounterB

inductive Sentinel where
  | requeue
  | maxRedeliveries
  deriving DecidableEq, Repr

-- a Go error, by the sentinels that `errors.Is` finds in it
structure Err where
  chain : List Sentinel
  deriving DecidableEq, Repr

inductive TimeoutVerdict where
  | nackNoRequeue
  | nackRequeue
  deriving DecidableEq, Repr

inductive Verdict where
  | ack
  | nack (requeue : Bool)
  deriving DecidableEq, Repr

structure Consumer where
  tag : Bytes
  maxRedeliveries : Int
  counterBDisabled : Bool
  brokerAutoAck : Bool
  -- HandlerTimeout is not zero
  handlerTimeout : Bool
  timeoutVerdict : TimeoutVerdict
  deriving DecidableEq, Repr

structure Delivery where
  messageId : Bytes
  deliveryTag : UInt64
  decodes : Bool
  deathCount : Int
  done : Bool
  resolved : Bool
  deriving DecidableEq, Repr

namespace Delivery

def settle (d : Delivery) (v : Verdict) : Option Verdict :=
  if d.done then none else if d.resolved then none else some v

def ack (d : Delivery) : Option Verdict := d.settle .ack

def nack (d : Delivery) (requeue : Bool) : Option Verdict := d.settle (.nack requeue)

def nackOnTimeout (d : Delivery) (requeue : Bool) : Option Verdict :=
  if d.resolved then none else some (.nack requeue)

def ackIf (d : Delivery) : Option Err → Option Verdict
  | none => d.ack
  | some err => d.nack (.requeue ∈ err.chain)

end Delivery

inductive Handling where
  | returned (handlerErr : Option Err) (channelClosed : Bool)
  | chanDone
  | deadline
  | ctxDone
  deriving DecidableEq, Repr

namespace Consumer

-- the key of counter B, "" where the counter does not apply
def counterBKey (c : Consumer) (d : Delivery) (autoAck : Bool) : Bytes :=
  if autoAck ∧ ¬c.brokerAutoAck ∧ 0 < c.maxRedeliveries ∧ ¬c.counterBDisabled then
    let key := if d.messageId ≠ [] then counterBKeyForMsgID d.messageId else []
    if key = [] then counterBKeyForDeliveryTag c.tag d.deliveryTag else key
  else
    []

def applyCounterB (c : Consumer) (cs : RedeliveryCounter) (key : Bytes) (handlerErr : Option Err)
    : RedeliveryCounter × Option Err :=
  if key = [] then
    (cs, handlerErr)
  else if ∃ err ∈ handlerErr, .requeue ∈ err.chain then
    let currentCount := cs.load key
    if c.maxRedeliveries < currentCount + 1 then
      (cs.delete key, some ⟨[.maxRedeliveries]⟩)
    else
      (cs.store key (currentCount + 1), handlerErr)
  else
    (cs.delete key, handlerErr)

def settleVerdict (c : Consumer) (d : Delivery) (cs : RedeliveryCounter) (key : Bytes)
    (handlerErr : Option Err) (autoAck : Bool) : RedeliveryCounter × Option Verdict :=
  if c.brokerAutoAck then
    (cs, none)
  else if autoAck then
    match c.applyCounterB cs key handlerErr with
    | (cs, processedErr) => (cs, d.ackIf processedErr)
  else
    (cs, none)

def timeout (c : Consumer) (d : Delivery) : Option Verdict :=
  if c.brokerAutoAck then
    none
  else
    d.nackOnTimeout (c.timeoutVerdict = .nackRequeue)

def handle (c : Consumer) (cs : RedeliveryCounter) (d : Delivery) (autoAck : Bool)
    : Handling → Option (RedeliveryCounter × Option Verdict)
  | .returned handlerErr channelClosed =>
    if channelClosed ∧ handlerErr ≠ none then
      some (cs, none)
    else
      some (c.settleVerdict d cs (c.counterBKey d autoAck) handlerErr autoAck)
  -- without HandlerTimeout the handler is called inline
  | .chanDone => if c.handlerTimeout then some (cs, none) else none
  | .deadline => if c.handlerTimeout then some (cs, c.timeout d) else none
  | .ctxDone => if c.handlerTimeout then some (cs, none) else none

def dispatch (c : Consumer) (cs : RedeliveryCounter) (d : Delivery) (autoAck : Bool) (h : Handling)
    : Option (RedeliveryCounter × Option Verdict) :=
  if d.decodes then
    if ¬c.brokerAutoAck ∧ 0 < c.maxRedeliveries ∧ c.maxRedeliveries ≤ d.deathCount then
      some (cs, some (.nack false))
    else
      c.handle cs d autoAck h
  else if c.brokerAutoAck then
    some (cs, none)
  else
    some (cs, some (.nack false))

end Consumer

structure Channel where
  counter : RedeliveryCounter
  frames : List (Delivery × Verdict)

structure Action where
  delivery : Delivery
  handling : Handling
  deriving DecidableEq, Repr

namespace Channel

def init : Channel := ⟨.new, []⟩

def step (c : Consumer) (s : Channel) (a : Action) : Option Channel :=
  match c.dispatch s.counter a.delivery true a.handling with
  | none => none
  | some (counter, v) => some ⟨counter, s.frames ++ v.toList.map (fun v => (a.delivery, v))⟩

def verdicts (s : Channel) (id : Bytes) : List Verdict :=
  (s.frames.filter (fun f => f.1.messageId = id)).map (·.2)

end Channel
end Dispatch
