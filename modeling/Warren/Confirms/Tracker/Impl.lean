import Mathlib.Data.List.AList
import Mathlib.Logic.Function.Basic
import Warren.Base.Chan

/-!
The publisher confirmation tracker of one AMQP channel (`internal/confirms/tracker.go`). A Go
`error` is an `Option Err`. `pending` holds the addresses of the waiters, because `Wait` keeps its
pointer after the tag was removed from the map. A `done` channel is never closed.
-/

namespace Confirms

open Function

inductive Err where
  | timeout
  | nacked
  | closed
  | unroutable (replyCode : UInt16)
  | ctx
  deriving DecidableEq, Repr

structure Waiter where
  done : Chan (Option Err) 1
  returnCode : UInt16
  returned : Bool
  deriving DecidableEq, Repr

instance : Inhabited Waiter := ⟨⟨.make, 0, false⟩⟩

namespace Waiter

-- select { case w.done <- err: default: }
def trySend (w : Waiter) (err : Option Err) : Waiter :=
  match w.done.trySend err with
  | some done => { w with done }
  | none => w

def resolve (w : Waiter) (baseErr : Option Err) : Waiter :=
  if w.returned ∧ baseErr = none then
    w.trySend (some (.unroutable w.returnCode))
  else
    w.trySend baseErr

end Waiter

structure Tracker where
  pending : AList (fun _ : Nat => Nat)
  order : List Nat
  head : Nat
  closed : Bool
  waiters : Nat → Waiter
  next : Nat

namespace Tracker

def new : Tracker := ⟨∅, [], 0, false, fun _ => default, 0⟩

def setWaiter (t : Tracker) (p : Nat) (w : Waiter) : Tracker :=
  { t with waiters := update t.waiters p w }

def orderCompactMinPrefix : Nat := 64

def compactOrder (t : Tracker) : Tracker :=
  if t.head = 0 then
    t
  else if t.order.length ≤ t.head then
    { t with order := [], head := 0 }
  else if orderCompactMinPrefix < t.head ∧ t.order.length ≤ t.head * 2 then
    { t with order := t.order.drop t.head, head := 0 }
  else
    t

def advanceLowWater (t : Tracker) : Tracker :=
  compactOrder { t with head := go t.pending t.head (t.order.drop t.head) }
where
  go (pending : AList (fun _ : Nat => Nat)) (i : Nat) : List Nat → Nat
    | [] => i
    | tag :: rest => if (pending.lookup tag).isSome then i else go pending (i + 1) rest

-- `slices.BinarySearch` on an ascending slice returns the earliest position that is not smaller
def binarySearch (order : List Nat) (tag : Nat) : Nat :=
  order.findIdx (fun x => tag ≤ x)

def orderInsert (t : Tracker) (tag : Nat) : Tracker :=
  match t.order.getLast? with
  | none => { t with order := t.order ++ [tag] }
  | some last =>
    if last < tag then
      { t with order := t.order ++ [tag] }
    else
      let idx := binarySearch t.order tag
      { t with
        order := t.order.take idx ++ tag :: t.order.drop idx
        head := if idx < t.head then idx else t.head }

def resolveOne (t : Tracker) (deliveryTag : Nat) (baseErr : Option Err) : Tracker :=
  match t.pending.lookup deliveryTag with
  | none => t
  | some p => t.setWaiter p ((t.waiters p).resolve baseErr)

def resolveUpTo (t : Tracker) (deliveryTag : Nat) (baseErr : Option Err) : Tracker :=
  match go deliveryTag baseErr t t.head (t.order.drop t.head) with
  | (t, i) => advanceLowWater { t with head := i }
where
  go (deliveryTag : Nat) (baseErr : Option Err) (t : Tracker) (i : Nat) : List Nat → Tracker × Nat
    | [] => (t, i)
    | tag :: rest =>
      if tag ≤ deliveryTag then
        go deliveryTag baseErr (t.resolveOne tag baseErr) (i + 1) rest
      else
        (t, i)

def register (t : Tracker) (deliveryTag : Nat) : Tracker × Option Err :=
  if t.closed then
    (t, some .closed)
  else
    let t := { t with
      pending := t.pending.insert deliveryTag t.next
      waiters := update t.waiters t.next default
      next := t.next + 1 }
    ((t.orderInsert deliveryTag).advanceLowWater, none)

def markReturned (t : Tracker) (deliveryTag : Nat) (replyCode : UInt16) : Tracker :=
  match t.pending.lookup deliveryTag with
  | none => t
  | some p => t.setWaiter p { t.waiters p with returned := true, returnCode := replyCode }

def ack (t : Tracker) (deliveryTag : Nat) (multiple : Bool) : Tracker :=
  if multiple then t.resolveUpTo deliveryTag none else t.resolveOne deliveryTag none

def nack (t : Tracker) (deliveryTag : Nat) (multiple : Bool) : Tracker :=
  if multiple then
    t.resolveUpTo deliveryTag (some .nacked)
  else
    t.resolveOne deliveryTag (some .nacked)

def closeAll (t : Tracker) : Tracker :=
  t.pending.entries.foldl closeOne { t with closed := true }
where
  closeOne (t : Tracker) (e : Sigma (fun _ : Nat => Nat)) : Tracker :=
    match (t.waiters e.2).done.trySend (some .closed) with
    | some done =>
      { t with
        waiters := update t.waiters e.2 { t.waiters e.2 with done }
        pending := t.pending.erase e.1 }
    | none => t

def cancel (t : Tracker) (deliveryTag : Nat) : Tracker :=
  match t.pending.lookup deliveryTag with
  | none => t
  | some p =>
    { t.setWaiter p ((t.waiters p).trySend (some .closed)) with
      pending := t.pending.erase deliveryTag }

end Tracker

/-!
`Wait` is three steps: the lookup under the mutex, the `select`, and the `delete` under the mutex.
The publisher calls it once for each tag it registered, so the calls are indexed by their tag.
-/

inductive WaitPhase where
  | selecting
  | received (err : Option Err)
  | expired (err : Err)
  deriving DecidableEq, Repr

structure WaitCall where
  waiter : Nat
  timeout : Int
  phase : WaitPhase
  deriving DecidableEq, Repr

structure State where
  tracker : Tracker
  waits : Nat → Option WaitCall
  results : List (Nat × Option Err)

inductive Action where
  | register (tag : Nat)
  | markReturned (tag : Nat) (replyCode : UInt16)
  | ack (tag : Nat) (multiple : Bool)
  | nack (tag : Nat) (multiple : Bool)
  | closeAll
  | cancel (tag : Nat)
  | waitBegin (tag : Nat) (timeout : Int)
  | waitDone (tag : Nat)
  | waitTimer (tag : Nat)
  | waitCtx (tag : Nat)
  | waitDelete (tag : Nat)
  deriving DecidableEq, Repr

namespace State

def init : State := ⟨.new, fun _ => none, []⟩

def setWait (s : State) (tag : Nat) (w : Option WaitCall) : State :=
  { s with waits := update s.waits tag w }

def waitBegin (s : State) (tag : Nat) (timeout : Int) : Option State :=
  match s.waits tag with
  | some _ => none
  | none =>
    match s.tracker.pending.lookup tag with
    | none => some { s with results := s.results ++ [(tag, some .closed)] }
    | some p => some (s.setWait tag (some ⟨p, timeout, .selecting⟩))

def waitDone (s : State) (tag : Nat) : Option State :=
  match s.waits tag with
  | some ⟨p, timeout, .selecting⟩ =>
    match (s.tracker.waiters p).done.recv with
    | some (some err, done) =>
      some { s.setWait tag (some ⟨p, timeout, .received err⟩) with
        tracker := s.tracker.setWaiter p { s.tracker.waiters p with done } }
    | _ => none
  | _ => none

def waitExpire (s : State) (tag : Nat) (err : Err) (enabled : Int → Bool) : Option State :=
  match s.waits tag with
  | some ⟨p, timeout, .selecting⟩ =>
    if enabled timeout then some (s.setWait tag (some ⟨p, timeout, .expired err⟩)) else none
  | _ => none

def waitDelete (s : State) (tag : Nat) : Option State :=
  match s.waits tag with
  | some ⟨_, _, .received err⟩ => some (finish err)
  | some ⟨_, _, .expired err⟩ => some (finish (some err))
  | _ => none
where
  finish (err : Option Err) : State :=
    { s.setWait tag none with
      tracker := { s.tracker with pending := s.tracker.pending.erase tag }
      results := s.results ++ [(tag, err)] }

def step (s : State) : Action → Option State
  | .register tag => some { s with tracker := (s.tracker.register tag).1 }
  | .markReturned tag replyCode => some { s with tracker := s.tracker.markReturned tag replyCode }
  | .ack tag multiple => some { s with tracker := s.tracker.ack tag multiple }
  | .nack tag multiple => some { s with tracker := s.tracker.nack tag multiple }
  | .closeAll => some { s with tracker := s.tracker.closeAll }
  | .cancel tag => some { s with tracker := s.tracker.cancel tag }
  | .waitBegin tag timeout => s.waitBegin tag timeout
  | .waitDone tag => s.waitDone tag
  -- the timer arm is a nil channel when there is no timeout
  | .waitTimer tag => s.waitExpire tag .timeout (fun timeout => 0 < timeout)
  | .waitCtx tag => s.waitExpire tag .ctx (fun _ => true)
  | .waitDelete tag => s.waitDelete tag

def left (s : State) (tag : Nat) : Option (Option Err) :=
  match s.waits tag with
  | some ⟨_, _, .received err⟩ => some err
  | some ⟨p, _, _⟩ => (s.tracker.waiters p).done.buf.head?
  | none =>
    match s.tracker.pending.lookup tag with
    | none => some (some .closed)
    | some p => (s.tracker.waiters p).done.buf.head?

end State
end Confirms
