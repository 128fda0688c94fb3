import Warren.Base.ErrorTree

/-!
The error values of `errors.go`, how they are classified, and how the errors of the AMQP client are
translated. Error texts are left out.
-/

namespace Errors

inductive Sentinel where
  | notConnected
  | alreadyClosed
  | alreadyResolved
  | shutdown
  | channelClosed
  | connectionBlocked
  | channelPoolExhausted
  | confirmTimeout
  | unroutable
  | publishNacked
  | partialBatch
  | batchTooLarge
  | messageTooLarge
  | rateLimited
  | requeue
  | poison
  | maxRedeliveries
  | consumerCancelled
  | invalidMessage
  | topologyMismatch
  | topologyRedeclareFailed
  | reconnecting
  | callTimeout
  | invalidOptions
  | contentTooLarge
  | connectionForced
  | invalidPath
  | accessRefused
  | notFound
  | resourceLocked
  | preconditionFailed
  | frameError
  | syntaxError
  | commandInvalid
  | channelError
  | unexpectedFrame
  | resourceError
  | notAllowed
  | notImplemented
  | internalError
  | transient
  | permanent
  deriving DecidableEq, Repr

inductive CtxErr where
  | canceled
  | deadlineExceeded
  deriving DecidableEq, Repr

inductive Value where
  | sentinel (s : Sentinel)
  | ctx (e : CtxErr)
  | foreign (n : Nat)
  deriving DecidableEq, Repr

def Value.isSentinel : Value → Bool
  | sentinel _ => true
  | _ => false

inductive Typed where
  -- `*amqp091.Error`
  | amqp (code : Int)
  -- `*codeError`
  | code (code : UInt16)
  deriving DecidableEq, Repr

abbrev Err := ErrorTree Value Typed

def Sentinel.err (s : Sentinel) : Err := .value (.sentinel s)

def CtxErr.err (e : CtxErr) : Err := .value (.ctx e)

-- fmt.Errorf("%w: %w", s, e)
def Sentinel.wrapping (s : Sentinel) (e : Err) : Err := .join s.err e

def transientSentinels : List Value := [
  .sentinel .channelPoolExhausted,
  .sentinel .publishNacked,
  .sentinel .connectionBlocked,
  .sentinel .confirmTimeout,
  .sentinel .channelClosed,
  .sentinel .reconnecting,
  .sentinel .rateLimited,
  .sentinel .connectionForced,
  .sentinel .channelError,
  .sentinel .internalError]

def isTransient : Option Err → Bool
  | none => false
  | some err =>
    if err.is (.ctx .canceled) then
      false
    else if err.is (.sentinel .transient) then
      true
    else
      err.isAny transientSentinels

def permanentSentinels : List Value := [
  .sentinel .contentTooLarge,
  .sentinel .invalidPath,
  .sentinel .accessRefused,
  .sentinel .notFound,
  .sentinel .resourceLocked,
  .sentinel .preconditionFailed,
  .sentinel .frameError,
  .sentinel .syntaxError,
  .sentinel .commandInvalid,
  .sentinel .unexpectedFrame,
  .sentinel .resourceError,
  .sentinel .notAllowed,
  .sentinel .notImplemented]

def isPermanent : Option Err → Bool
  | none => false
  | some err =>
    if err.is (.sentinel .permanent) then
      true
    else if err.is (.sentinel .topologyRedeclareFailed) then
      true
    else if err.is (.sentinel .messageTooLarge) then
      true
    else
      err.isAny permanentSentinels

def amqpCodeSentinels : List (Sentinel × UInt16) := [
  (.contentTooLarge, 311),
  (.connectionForced, 320),
  (.invalidPath, 402),
  (.accessRefused, 403),
  (.notFound, 404),
  (.resourceLocked, 405),
  (.preconditionFailed, 406),
  (.frameError, 501),
  (.syntaxError, 502),
  (.commandInvalid, 503),
  (.channelError, 504),
  (.unexpectedFrame, 505),
  (.resourceError, 506),
  (.notAllowed, 530),
  (.notImplemented, 540),
  (.internalError, 541)]

def amqpCodeTable (code : UInt16) : Option Sentinel :=
  (amqpCodeSentinels.find? (fun s => s.2 = code)).map Prod.fst

def asAmqpError (err : Err) : Option Int :=
  err.find (fun t => match t with | .amqp code => some code | .code _ => none)

def wrapAMQPError (err : Err) : Err :=
  match asAmqpError err with
  | none => err
  | some code =>
    match amqpCodeTable (UInt16.ofInt code) with
    | none => err
    | some sentinel => sentinel.wrapping err

def wrapCode (code : UInt16) (err : Err) : Err := .tagged (.code code) err

-- `redact.Error` changes the text of an error and wraps it
def redact (err : Err) : Err := .wrap err

-- what `runBarrier` stores for the error of a hook
def degradedErr (hookErr : Err) : Err := Sentinel.topologyRedeclareFailed.wrapping (redact hookErr)

/-! An error that code outside of the library has built wraps none of its sentinels. -/

structure LibErr where
  err : Err
  foreign : ∀ v ∈ err.values, v.isSentinel = false

end Errors
