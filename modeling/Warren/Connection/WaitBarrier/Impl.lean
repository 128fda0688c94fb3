import Mathlib.Logic.Function.Basic
import Warren.Base.Cond

/-!
The callers of `waitBarrier` on one socket (`connection.go`), each with the watcher goroutine that
it starts in every iteration, and the critical sections of the supervisor. `barrierCond.Wait` is
three steps: it draws a ticket, releases `barrierMu`, and takes it again after a broadcast.
-/

namespace WaitBarrier

inductive Err where
  | reconnecting
  | connectionBlocked
  | barrierCap
  | topologyRedeclareFailed
  deriving DecidableEq, Repr

inductive Phase where
  | entering
  | looping
  | enqueuing (watcher : Nat)
  | unlocking (ticket watcher : Nat)
  | sleeping (ticket watcher : Nat)
  | relocking (watcher : Nat)
  | awake (watcher : Nat)
  | readDegraded
  | leaving (err : Option Err)
  | returned (err : Option Err)
  deriving DecidableEq, Repr

structure Caller where
  ctxDone : Bool
  capDeadline : Option Nat
  phase : Phase
  deriving DecidableEq, Repr

inductive WatcherPhase where
  | selecting
  | broadcasting
  | ended
  deriving DecidableEq, Repr

structure Watcher where
  caller : Nat
  timer : Option Nat
  fired : Bool
  done : Bool
  phase : WatcherPhase
  deriving DecidableEq, Repr

structure State where
  reconnectBarrierTimeout : Nat
  now : Nat
  barrierMu : Option Nat
  barrierCond : Cond
  reconnecting : Bool
  blocked : Bool
  degradedErr : Bool
  callers : Nat → Caller
  watchers : Nat → Option Watcher
  nextWatcher : Nat

inductive CallerAction where
  | lock
  | loop
  | add
  | unlock
  | wake
  | relock
  | check
  | readDegraded
  | leave
  deriving DecidableEq, Repr

inductive WatcherAction where
  | ctxDone
  | timer
  | done
  | broadcast
  deriving DecidableEq, Repr

inductive SuperAction where
  | blocked
  | unblocked
  | reconnect
  | reconnected
  | barrierCap
  deriving DecidableEq, Repr

inductive Action where
  | caller (i : Nat) (a : CallerAction)
  | watcher (w : Nat) (a : WatcherAction)
  | super (a : SuperAction)
  | degraded (err : Bool)
  | cancelCtx (i : Nat)
  | tick
  | fire (w : Nat)
  deriving DecidableEq, Repr

namespace State

def init (reconnectBarrierTimeout : Nat) (bootDegraded : Bool) : State where
  reconnectBarrierTimeout
  now := 0
  barrierMu := none
  barrierCond := .make
  reconnecting := bootDegraded
  blocked := false
  degradedErr := false
  callers := fun _ => ⟨false, none, .entering⟩
  watchers := fun _ => none
  nextWatcher := 0

def setCaller (s : State) (i : Nat) (c : Caller) : State :=
  { s with callers := Function.update s.callers i c }

def goto (s : State) (i : Nat) (phase : Phase) : State :=
  s.setCaller i { s.callers i with phase }

def setWatcher (s : State) (w : Nat) (r : Watcher) : State :=
  { s with watchers := Function.update s.watchers w (some r) }

def takeMu (s : State) (i : Nat) (phase : Phase) : Option State :=
  if s.barrierMu = none then some { s.goto i phase with barrierMu := some i } else none

def releaseMu (s : State) (i : Nat) (phase : Phase) : State :=
  { s.goto i phase with barrierMu := none }

def startWatcher (s : State) (i : Nat) (capDeadline timer : Option Nat) : State :=
  let s := s.setWatcher s.nextWatcher ⟨i, timer, false, false, .selecting⟩
  { s.setCaller i { s.callers i with capDeadline, phase := .enqueuing s.nextWatcher } with
    nextWatcher := s.nextWatcher + 1 }

def loop (s : State) (i : Nat) : State :=
  if s.reconnecting then
    let capDeadline := (s.callers i).capDeadline.getD (s.now + s.reconnectBarrierTimeout)
    s.startWatcher i (some capDeadline) (some capDeadline)
  else if s.blocked then
    s.startWatcher i none none
  else
    s.releaseMu i .readDegraded

def check (s : State) (i w : Nat) (r : Watcher) : State :=
  let s := s.setWatcher w { r with done := true }
  if (s.callers i).ctxDone then
    if s.reconnecting then
      s.releaseMu i (.returned (some .reconnecting))
    else
      s.releaseMu i (.returned (some .connectionBlocked))
  else if s.reconnecting ∧ ∀ deadline ∈ (s.callers i).capDeadline, deadline ≤ s.now then
    s.releaseMu i (.returned (some .barrierCap))
  else
    s.goto i .looping

def callerStep (s : State) (i : Nat) (a : CallerAction) : Option State :=
  match a, (s.callers i).phase with
  | .lock, .entering => s.takeMu i .looping
  | .loop, .looping => some (s.loop i)
  | .add, .enqueuing w =>
    some { s.goto i (.unlocking s.barrierCond.wait w) with barrierCond := s.barrierCond.add }
  | .unlock, .unlocking ticket w => some (s.releaseMu i (.sleeping ticket w))
  | .wake, .sleeping ticket w =>
    if s.barrierCond.woken ticket then some (s.goto i (.relocking w)) else none
  | .relock, .relocking w => s.takeMu i (.awake w)
  | .check, .awake w =>
    match s.watchers w with
    | none => none
    | some r => some (s.check i w r)
  | .readDegraded, .readDegraded =>
    some (s.goto i (.leaving (if s.degradedErr then some .topologyRedeclareFailed else none)))
  -- `barrierMu` is taken again for the deferred `Unlock`
  | .leave, .leaving err =>
    if s.barrierMu = none then some (s.goto i (.returned err)) else none
  | _, _ => none

def watcherStep (s : State) (w : Nat) (a : WatcherAction) : Option State :=
  match s.watchers w with
  | none => none
  | some r =>
    match a, r.phase with
    | .ctxDone, .selecting =>
      if (s.callers r.caller).ctxDone then
        some (s.setWatcher w { r with phase := .broadcasting })
      else
        none
    | .timer, .selecting =>
      if r.fired then some (s.setWatcher w { r with phase := .broadcasting }) else none
    | .done, .selecting => if r.done then some (s.setWatcher w { r with phase := .ended }) else none
    | .broadcast, .broadcasting =>
      some { s.setWatcher w { r with phase := .ended } with barrierCond := s.barrierCond.broadcast }
    | _, _ => none

def superStep (s : State) (a : SuperAction) : Option State :=
  match a with
  | .blocked => if s.barrierMu = none then some { s with blocked := true } else none
  | .unblocked =>
    if s.barrierMu = none then
      some { s with blocked := false, barrierCond := s.barrierCond.broadcast }
    else
      none
  | .reconnect =>
    if s.barrierMu = none then some { s with blocked := false, reconnecting := true } else none
  | .reconnected =>
    if s.barrierMu = none then
      some { s with reconnecting := false, barrierCond := s.barrierCond.broadcast }
    else
      none
  | .barrierCap =>
    if s.barrierMu = none then some { s with barrierCond := s.barrierCond.broadcast } else none

-- a timer that was stopped does not fire
def fire (s : State) (w : Nat) : Option State :=
  match s.watchers w with
  | none => none
  | some r =>
    match r.timer with
    | none => none
    | some deadline =>
      if deadline ≤ s.now ∧ r.done = false then
        some (s.setWatcher w { r with fired := true })
      else
        none

def step (s : State) : Action → Option State
  | .caller i a => s.callerStep i a
  | .watcher w a => s.watcherStep w a
  | .super a => s.superStep a
  | .degraded err => some { s with degradedErr := err }
  | .cancelCtx i => some (s.setCaller i { s.callers i with ctxDone := true })
  | .tick => some { s with now := s.now + 1 }
  | .fire w => s.fire w

end State
end WaitBarrier
