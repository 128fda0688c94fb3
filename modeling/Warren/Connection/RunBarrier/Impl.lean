import Warren.Errors.Impl

/-!
`runBarrier` of one socket (`connection.go`), one step for each critical section, select arm and
callback. A goroutine that a barrier has left behind is not followed. The supervisor may reconnect
after its context is done, so the runs give outcomes in every order.
-/

namespace RunBarrier

open Errors

inductive Outcome where
  | succeeded
  | failed (hookErr : Err)
  | capped
  | interrupted
  deriving DecidableEq, Repr

inductive Pc where
  | supervising
  | dialing
  | selecting
  | settling (hookErr : Option Err)
  -- inside the `WithOnReconnect` callback
  | calling
  | clearing (outcome : Outcome)
  | capping
  | closingRaw
  | returned (outcome : Outcome)
  | exited
  deriving DecidableEq, Repr

structure State where
  onTopoDegraded : Bool
  onReconnect : Bool
  hooks : Nat
  ctxDone : Bool
  raw : Option Nat
  reconnecting : Bool
  degraded : Bool
  degradedErr : Option Err
  hooksLeft : Nat
  hookErrCh : Option (Option Err)
  callbacks : List Err
  pc : Pc
  outcomes : List Outcome
  topoDegradedCalls : List Err
  -- for each call of `onReconnect`, how many barriers had returned before
  reconnectCalls : List Nat
  deriving DecidableEq, Repr

inductive Action where
  | registerHook
  | cancel
  | reconnect
  | dialed (raw : Nat)
  | exhausted
  | hook (err : Option Err)
  | hooksDone
  | takeHookErr
  | takeCtx
  | takeCap
  | settle
  | onReconnect
  | clear
  | takeRaw
  | closeRaw
  | callback (i : Nat)
  deriving DecidableEq, Repr

namespace State

-- a boot-degraded socket starts with `reconnecting` set and without a connection
def fresh (onTopoDegraded onReconnect : Bool) (raw : Option Nat) : State where
  onTopoDegraded
  onReconnect
  hooks := 0
  ctxDone := false
  raw
  reconnecting := raw.isNone
  degraded := false
  degradedErr := none
  hooksLeft := 0
  hookErrCh := none
  callbacks := []
  pc := .supervising
  outcomes := []
  topoDegradedCalls := []
  reconnectCalls := []

def reconnect (s : State) : State := { s with reconnecting := true, pc := .dialing }

def start (s : State) (raw : Nat) : State :=
  { s with raw := some raw, hooksLeft := s.hooks, hookErrCh := none, pc := .selecting }

def hook (s : State) (err : Option Err) : Option State :=
  match s.hookErrCh, s.hooksLeft, err with
  | none, n + 1, none => some { s with hooksLeft := n }
  | none, _ + 1, some err => some { s with hookErrCh := some (some err) }
  | _, _, _ => none

def hooksDone (s : State) : Option State :=
  if s.hookErrCh = none ∧ s.hooksLeft = 0 then some { s with hookErrCh := some none } else none

def takeHookErr (s : State) : Option State :=
  match s.hookErrCh with
  | none => none
  | some hookErr => some { s with pc := .settling hookErr }

def enterDegraded (s : State) (hookErr : Err) : State :=
  { s with
    degraded := true
    degradedErr := some (Errors.degradedErr hookErr)
    callbacks :=
      if s.degraded = false ∧ s.onTopoDegraded = true then
        s.callbacks ++ [Errors.degradedErr hookErr]
      else
        s.callbacks
    pc := .clearing (.failed hookErr) }

def leaveDegraded (s : State) : State :=
  { s with
    degraded := false
    degradedErr := none
    pc := if s.onReconnect then .calling else .clearing .succeeded }

def ret (s : State) (outcome : Outcome) : State :=
  { s with outcomes := s.outcomes ++ [outcome], pc := .returned outcome }

def callback (s : State) (i : Nat) : Option State :=
  match s.callbacks[i]? with
  | none => none
  | some err =>
    some { s with
      callbacks := s.callbacks.eraseIdx i
      topoDegradedCalls := s.topoDegradedCalls ++ [err] }

def step (s : State) (a : Action) : Option State :=
  match a, s.pc with
  | .registerHook, _ => some { s with hooks := s.hooks + 1 }
  | .cancel, _ => some { s with ctxDone := true }
  | .reconnect, .supervising => some s.reconnect
  | .reconnect, .returned _ => some s.reconnect
  | .dialed raw, .dialing => some (s.start raw)
  | .exhausted, .dialing => some { s with reconnecting := false, pc := .exited }
  | .hook err, .selecting => s.hook err
  | .hooksDone, .selecting => s.hooksDone
  | .takeHookErr, .selecting => s.takeHookErr
  | .takeCtx, .selecting =>
    if s.ctxDone then some { s with pc := .clearing .interrupted } else none
  | .takeCap, .selecting => some { s with pc := .capping }
  | .settle, .settling (some hookErr) => some (s.enterDegraded hookErr)
  | .settle, .settling none => some s.leaveDegraded
  -- a panic is recovered, so the barrier goes on also then
  | .onReconnect, .calling =>
    some { s with
      reconnectCalls := s.reconnectCalls ++ [s.outcomes.length]
      pc := .clearing .succeeded }
  | .clear, .clearing outcome => some ({ s with reconnecting := false }.ret outcome)
  | .takeRaw, .capping => some { s with raw := none, pc := .closingRaw }
  -- the cap leaves `reconnecting` set
  | .closeRaw, .closingRaw => some (s.ret .capped)
  | .callback i, _ => s.callback i
  | _, _ => none

end State
end RunBarrier
