import Warren.Errors.Paths
import Warren.Publisher.Encode.Impl

/-!
The retry loop of `Publish` (`publisher.go`) with what it hands to `publishOnce`, and with the
moments at which the context and the backoff end. A policy without a bound may retry forever, so the
loop is run for a number of turns.
-/

namespace PublishRetry

open Encode (Body Headers Message Publishing buildPublishing)
open Errors (Err Attempt isTransient)

inductive Arm where
  | ctx
  | timer
  deriving DecidableEq, Repr

/--
A turn of the loop: what the calls of `publishOnce` return, and the moments at which `ctx.Err()` is
read, the timer of the backoff fires and the `select` is reached. `NextBackoff` is positive. If both
arms are ready the `select` takes `either`.
-/
structure Turn where
  attempt : Attempt
  checkAt : Nat
  firesAt : Nat
  selectAt : Nat
  either : Arm
  checkAt_lt : checkAt < firesAt
  checkAt_le : checkAt ≤ selectAt

-- an arm is ready from its own moment on, but not before the `select` is reached
def Turn.arm (t : Turn) : Option Nat → Arm
  | none => .timer
  | some done =>
    if max t.selectAt done < max t.selectAt t.firesAt then
      .ctx
    else if max t.selectAt t.firesAt < max t.selectAt done then
      .timer
    else
      t.either

def writesFrame (a : Attempt) : Bool :=
  a.rateLimiter.isNone && (Errors.waitBarrier a.barrier).isNone && (Errors.acquire a.pool).isNone
    && a.send.register.isNone

structure Outcome (M : Type) where
  attempts : List (Message M × Body)
  frames : List Publishing
  -- `none` while the loop goes on
  returned : Option (Option Err)

structure Publisher where
  closed : Bool
  -- `Retries` of the policy
  retryPolicy : Option Int

/--
A call of `Publish`: the result of `encodeMsg`, and the moment at which the context is done.
-/
structure Call (M : Type) where
  encoded : Except Err (Message M × Body)
  injectTrace : Headers → Headers
  ctxDone : Option Nat

variable {M : Type}

def publishOnce (msg : Message M) (body : Body) (a : Attempt) (rest : Outcome M) : Outcome M where
  attempts := (msg, body) :: rest.attempts
  frames := if writesFrame a then buildPublishing msg body :: rest.frames else rest.frames
  returned := rest.returned

def ret (err : Option Err) : Outcome M := ⟨[], [], some err⟩

def loop (p : Publisher) (ctxDone : Option Nat) (msg : Message M) (body : Body) (turns : Nat → Turn)
    : Nat → Nat → Outcome M
  | 0, _ => ⟨[], [], none⟩
  | fuel + 1, attempt =>
    let t := turns attempt
    publishOnce msg body t.attempt <|
      match Errors.publishOnce t.attempt, p.retryPolicy with
      | none, _ => ret none
      | some err, none => ret (some err)
      | some err, some retries =>
        if isTransient (some err) = false then
          ret (some err)
        else if 0 < retries ∧ retries ≤ attempt then
          ret (some err)
        else if ctxDone.any (· ≤ t.checkAt) then
          ret (some err)
        else
          match t.arm ctxDone with
          | .ctx => ret (some err)
          | .timer => loop p ctxDone msg body turns fuel (attempt + 1)

def publish (p : Publisher) (c : Call M) (turns : Nat → Turn) (fuel : Nat) : Outcome M :=
  if p.closed then
    ret (some Errors.Sentinel.alreadyClosed.err)
  else
    match c.encoded with
    | .error err => ret (some err)
    | .ok (msg, body) =>
      loop p c.ctxDone { msg with headers := c.injectTrace msg.headers } body turns fuel 0

end PublishRetry
