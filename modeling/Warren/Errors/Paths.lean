import Warren.Confirms.Tracker.Impl
import Warren.Errors.Impl

/-!
The errors that `Publish`, `PublishBatch` and `Health` return. Each function is given what the calls
that it makes have returned.
-/

namespace Errors

-- `declareOnChannel` in `topology.go`
def wrapMismatch (err : Err) : Err :=
  let wrapped := wrapAMQPError err
  if wrapped.is (.sentinel .preconditionFailed) then
    Sentinel.topologyMismatch.wrapping wrapped
  else
    wrapped

-- the replies to the declares and binds that are sent, in order
def declareOnChannel (replies : List (Option LibErr)) : Option Err :=
  replies.findSome? (fun reply => reply.map (fun e => wrapMismatch e.err))

inductive OpenChannel where
  | opened
  | rawNil
  | refused (e : LibErr)

def openChannel : OpenChannel → Option Err
  | .opened => none
  | .rawNil => some Sentinel.notConnected.err
  | .refused e => some e.err

structure Redeclare where
  ctxErr : Option CtxErr
  channel : OpenChannel
  replies : List (Option LibErr)

def Redeclare.run (r : Redeclare) : Option Err :=
  (r.ctxErr.map CtxErr.err)
    |>.or (openChannel r.channel)
    |>.or (declareOnChannel r.replies)

def runTopologyRedeclare (topologies : List Redeclare) : Option Err :=
  topologies.findSome? Redeclare.run

-- `degraded` is entered with the error of whichever hook has failed
inductive WaitBarrier where
  | cleared
  | reconnectingDone (ctxErr : CtxErr)
  | blockedDone (ctxErr : CtxErr)
  | capped
  | degraded (hookErr : Err)

def waitBarrier : WaitBarrier → Option Err
  | .cleared => none
  | .reconnectingDone ctxErr => some (Sentinel.reconnecting.wrapping ctxErr.err)
  | .blockedDone ctxErr => some (Sentinel.connectionBlocked.wrapping ctxErr.err)
  | .capped => some (.wrap Sentinel.reconnecting.err)
  | .degraded hookErr => some (degradedErr hookErr)

inductive OpenEntry where
  | opened
  | rawNil
  | channel (e : LibErr)
  | confirm (e : LibErr)

def openPublisherEntry : OpenEntry → Option Err
  | .opened => none
  | .rawNil => some Sentinel.notConnected.err
  | .channel e => some (wrapAMQPError e.err)
  | .confirm e => some (wrapAMQPError e.err)

inductive Acquire where
  | idle
  | exhausted (ctxErr : CtxErr)
  | opens (o : OpenEntry)

def acquire : Acquire → Option Err
  | .idle => none
  | .exhausted ctxErr => some (Sentinel.channelPoolExhausted.wrapping ctxErr.err)
  | .opens o => openPublisherEntry o

def mapConfirmError (ctxErr : CtxErr) : Confirms.Err → Err
  | .timeout => Sentinel.confirmTimeout.err
  | .nacked => Sentinel.publishNacked.err
  | .closed => Sentinel.channelClosed.err
  | .unroutable replyCode => wrapCode replyCode Sentinel.unroutable.err
  | .ctx => ctxErr.err

structure Send where
  ctxErr : CtxErr
  register : Option Confirms.Err
  publish : Option LibErr
  wait : Option Confirms.Err

def Send.err (s : Send) : Option Err :=
  (s.register.map (mapConfirmError s.ctxErr))
    |>.or (s.publish.map (fun e => wrapAMQPError e.err))
    |>.or (s.wait.map (mapConfirmError s.ctxErr))

structure Attempt where
  rateLimiter : Option CtxErr
  barrier : WaitBarrier
  pool : Acquire
  send : Send

def publishOnce (a : Attempt) : Option Err :=
  (a.rateLimiter.map (fun rlErr => Sentinel.rateLimited.wrapping rlErr.err))
    |>.or (waitBarrier a.barrier)
    |>.or (acquire a.pool)
    |>.or a.send.err

inductive EncodeMsg where
  | encoded
  | invalid
  | codec (e : LibErr)
  | tooLarge

def encodeMsg : EncodeMsg → Option Err
  | .encoded => none
  | .invalid => some (.wrap Sentinel.invalidMessage.err)
  | .codec e => some (Sentinel.invalidMessage.wrapping e.err)
  | .tooLarge => some (.wrap Sentinel.messageTooLarge.err)

structure Iteration where
  attempt : Attempt
  ctxDone : Bool
  backoffDone : Bool

structure Looped where
  retried : List Err
  returned : Option (Option Err)

def Looped.retry (err : Err) (l : Looped) : Looped := { l with retried := err :: l.retried }

-- `retryPolicy` is `Retries` of the policy
def retryLoop (retryPolicy : Option Int) : Nat → List Iteration → Looped
  | _, [] => ⟨[], none⟩
  | attempt, i :: is =>
    match publishOnce i.attempt, retryPolicy with
    | none, _ => ⟨[], some none⟩
    | some err, none => ⟨[], some (some err)⟩
    | some err, some retries =>
      if isTransient (some err) = false then
        ⟨[], some (some err)⟩
      else if 0 < retries ∧ retries ≤ attempt then
        ⟨[], some (some err)⟩
      else if i.ctxDone then
        ⟨[], some (some err)⟩
      else if i.backoffDone then
        ⟨[err], some (some err)⟩
      else
        (retryLoop retryPolicy (attempt + 1) is).retry err

structure Publish where
  retryPolicy : Option Int
  closed : Bool
  encode : EncodeMsg
  loop : List Iteration

def publish (p : Publish) : Looped :=
  if p.closed then
    ⟨[], some (some Sentinel.alreadyClosed.err)⟩
  else
    match encodeMsg p.encode with
    | some err => ⟨[], some (some err)⟩
    | none => retryLoop p.retryPolicy 0 p.loop

structure Batch where
  tooLarge : Bool
  duplicate : Bool
  closed : Bool
  msgs : List (EncodeMsg × Send)
  barrier : WaitBarrier
  pool : Acquire

def slotErr (m : EncodeMsg × Send) : Option Err :=
  (encodeMsg m.1).or m.2.err

def publishBatch (b : Batch) : List (Option Err) × Option Err :=
  if b.msgs.isEmpty then
    ([], none)
  else if b.tooLarge then
    ([], some Sentinel.batchTooLarge.err)
  else if b.duplicate then
    ([], some (.wrap Sentinel.invalidMessage.err))
  else if b.closed then
    ([], some Sentinel.alreadyClosed.err)
  else if b.msgs.all (fun m => (encodeMsg m.1).isSome) then
    (b.msgs.map (fun m => encodeMsg m.1), some Sentinel.partialBatch.err)
  else
    match (waitBarrier b.barrier).or (acquire b.pool) with
    | some err => ([], some err)
    | none =>
      let results := b.msgs.map slotErr
      if results.any Option.isSome then
        (results, some Sentinel.partialBatch.err)
      else
        (results, none)

end Errors
