import Warren.Confirms.Tracker.Impl

/-!
One publisher channel (`publisher.go`): the calls of `publishOnce` and `PublishBatch` that use it
one after another, the goroutine of `startConfirmDemux`, and the broker.
-/

namespace Publisher

open Function

inductive Err where
  | confirmTimeout
  | publishNacked
  | channelClosed
  | unroutable (replyCode : UInt16)
  | ctx
  -- what `PublishWithContext` returned, after `wrapAMQPError`
  | amqp
  deriving DecidableEq, Repr

def mapConfirmError : Confirms.Err → Err
  | .timeout => .confirmTimeout
  | .nacked => .publishNacked
  | .closed => .channelClosed
  | .unroutable replyCode => .unroutable replyCode
  | .ctx => .ctx

-- the MessageID of a message that went through `applyDefaults`
structure MessageID where
  val : String
  ne_empty : val ≠ ""
  deriving DecidableEq

structure Message where
  messageID : String
  -- what `uuid.NewV7` returns for it
  uuid : MessageID
  valid : Bool
  deriving DecidableEq

namespace Message

def applyDefaults (msg : Message) : MessageID :=
  if h : msg.messageID = "" then msg.uuid else ⟨msg.messageID, h⟩

def encodeMsg (msg : Message) : Option MessageID :=
  if msg.valid then some msg.applyDefaults else none

end Message

def duplicateExplicitID (seen : List String) : List Message → Bool
  | [] => false
  | msg :: msgs =>
    if msg.messageID = "" then
      duplicateExplicitID seen msgs
    else if msg.messageID ∈ seen then
      true
    else
      duplicateExplicitID (msg.messageID :: seen) msgs

structure Attempt where
  number : Nat
  messageID : MessageID
  deliveryTag : Nat
  deriving DecidableEq

structure Publishing where
  attempt : Attempt
  returned : Option UInt16
  confirmed : Option Bool
  deriving DecidableEq

-- no basic.return can follow
def Publishing.answered (pub : Publishing) : Bool :=
  pub.returned.isSome || pub.confirmed.isSome

inductive Phase where
  | store
  | register (a : Attempt)
  | deregister (a : Attempt)
  | publish (a : Attempt)
  | cancel (a : Attempt)
  | wait
  | delete (messageIDs : List MessageID)
  deriving DecidableEq

/-!
A call that holds the channel. `publishOnce` is the same loop over one message, but where `Register`
fails: `PublishBatch` deletes the entry at once and once more at the end.
-/

structure Call where
  batch : Bool
  encoded : List MessageID
  todo : List MessageID
  published : List Attempt
  phase : Phase
  deriving DecidableEq

def Call.next (k : Call) : Call :=
  match k.todo, k.published with
  | _ :: _, _ => { k with phase := .store }
  | [], _ :: _ => { k with phase := .wait }
  | [], [] => { k with phase := .delete k.encoded }

inductive Demux where
  | selecting
  | marking (tag : Nat) (replyCode : UInt16)
  | exited
  deriving DecidableEq, Repr

structure State where
  mandatory : Bool
  confirmTimeout : Int
  publishBatchMaxSize : Int
  confirms : Confirms.State
  returnTagMap : String → Option Nat
  nextPublishSeqNo : Nat
  closed : Bool
  demux : Demux
  call : Option Call
  attempts : Nat
  broker : Nat → Option Publishing
  results : List (Attempt × Option Err)

inductive WaitStep where
  | begin
  | done
  | timer
  | ctx
  | delete
  deriving DecidableEq, Repr

def WaitStep.action (w : WaitStep) (tag : Nat) (timeout : Int) : Confirms.Action :=
  match w with
  | .begin => .waitBegin tag timeout
  | .done => .waitDone tag
  | .timer => .waitTimer tag
  | .ctx => .waitCtx tag
  | .delete => .waitDelete tag

inductive CallAction where
  | store
  | register
  | deregister
  | publish (ok : Bool)
  | cancel
  | wait (w : WaitStep)
  | delete
  | release
  deriving DecidableEq, Repr

inductive DemuxAction where
  | ret (tag : Nat) (replyCode : UInt16)
  | markReturned
  | confirm (tag : Nat) (ack : Bool)
  | closeAll
  deriving DecidableEq, Repr

inductive Action where
  | publishOnce (messageID : MessageID)
  | publishBatch (msgs : List Message)
  | call (a : CallAction)
  | demux (a : DemuxAction)
  | close
  deriving DecidableEq

namespace State

def init (mandatory : Bool) (confirmTimeout publishBatchMaxSize : Int) : State where
  mandatory := mandatory
  confirmTimeout := confirmTimeout
  publishBatchMaxSize := publishBatchMaxSize
  confirms := .init
  returnTagMap := fun _ => none
  nextPublishSeqNo := 1
  closed := false
  demux := .selecting
  call := none
  attempts := 0
  broker := fun _ => none
  results := []

def acquire (s : State) (batch : Bool) (encoded : List MessageID) : Option State :=
  match s.call with
  | some _ => none
  | none => some { s with call := some (Call.next ⟨batch, encoded, encoded, [], .store⟩) }

def maxSize (s : State) : Int :=
  if s.publishBatchMaxSize ≤ 0 then 1024 else s.publishBatchMaxSize

-- a call that is refused before it acquires the channel changes nothing
def publishBatch (s : State) (msgs : List Message) : Option State :=
  if msgs = [] then
    some s
  else if s.maxSize < msgs.length then
    some s
  else if s.mandatory ∧ duplicateExplicitID [] msgs then
    some s
  else
    match msgs.filterMap Message.encodeMsg with
    | [] => some s
    | messageID :: rest => s.acquire true (messageID :: rest)

def store (s : State) (k : Call) : Option State :=
  match k.todo with
  | [] => none
  | messageID :: todo =>
    let a : Attempt := ⟨s.attempts, messageID, s.nextPublishSeqNo⟩
    some { s with
      returnTagMap :=
        if s.mandatory then
          update s.returnTagMap messageID.val (some a.deliveryTag)
        else
          s.returnTagMap
      attempts := s.attempts + 1
      call := some { k with todo, phase := .register a } }

def resolved (s : State) (a : Attempt) (err : Option Err) (k : Call) : State :=
  { s with results := s.results ++ [(a, err)], call := some k }

def register (s : State) (k : Call) (a : Attempt) : State :=
  match s.confirms.tracker.register a.deliveryTag with
  | (tracker, none) =>
    { s with
      confirms := { s.confirms with tracker }
      call := some { k with phase := .publish a } }
  | (tracker, some err) =>
    let s := { s with confirms := { s.confirms with tracker } }
    s.resolved a (some (mapConfirmError err))
      (if k.batch then { k with phase := .deregister a } else k.next)

def deleteID (s : State) (messageID : MessageID) : State :=
  if s.mandatory then
    { s with returnTagMap := update s.returnTagMap messageID.val none }
  else
    s

def sent (s : State) (k : Call) (a : Attempt) : State :=
  { s with
    nextPublishSeqNo := s.nextPublishSeqNo + 1
    broker := update s.broker a.deliveryTag (some ⟨a, none, none⟩)
    call := some (Call.next { k with published := k.published ++ [a] }) }

-- a message that could not be sent does not use up its delivery tag
def publish (s : State) (k : Call) (a : Attempt) (ok : Bool) : Option State :=
  if ok then
    if s.closed then none else some (s.sent k a)
  else
    some { s with call := some { k with phase := .cancel a } }

def cancel (s : State) (k : Call) (a : Attempt) : State :=
  let s := { s with confirms := { s.confirms with tracker := s.confirms.tracker.cancel a.deliveryTag } }
  s.resolved a (some .amqp) k.next

def wait (s : State) (k : Call) (w : WaitStep) : Option State :=
  match k.published with
  | [] => none
  | a :: published =>
    match s.confirms.step (w.action a.deliveryTag s.confirmTimeout) with
    | none => none
    | some confirms =>
      match confirms.results.drop s.confirms.results.length with
      | [] => some { s with confirms }
      | (_, err) :: _ =>
        let s := { s with confirms }
        some (s.resolved a (err.map mapConfirmError) (Call.next { k with published }))

def callStep (s : State) (k : Call) (a : CallAction) : Option State :=
  match k.phase, a with
  | .store, .store => s.store k
  | .register a, .register => some (s.register k a)
  | .deregister a, .deregister => some { s.deleteID a.messageID with call := some k.next }
  | .publish a, .publish ok => s.publish k a ok
  | .cancel a, .cancel => some (s.cancel k a)
  | .wait, .wait w => s.wait k w
  | .delete (messageID :: messageIDs), .delete =>
    some { s.deleteID messageID with call := some { k with phase := .delete messageIDs } }
  | .delete [], .release => some { s with call := none }
  | _, _ => none

-- the broker returns a mandatory message at most once, and before it confirms it
def demuxReturn (s : State) (tag : Nat) (replyCode : UInt16) : Option State :=
  match s.broker tag with
  | none => none
  | some pub =>
    if s.mandatory = false ∨ pub.answered then
      none
    else
      let s := { s with
        broker := update s.broker tag (some { pub with returned := some replyCode }) }
      if pub.attempt.messageID.val ≠ "" then
        match s.returnTagMap pub.attempt.messageID.val with
        | none => some s
        | some t =>
          some { s with
            returnTagMap := update s.returnTagMap pub.attempt.messageID.val none
            demux := .marking t replyCode }
      else
        some s

def demuxConfirm (s : State) (tag : Nat) (ack : Bool) : Option State :=
  match s.broker tag with
  | none => none
  | some pub =>
    if pub.confirmed.isSome then
      none
    else
      let tracker := s.confirms.tracker
      some { s with
        broker := update s.broker tag (some { pub with confirmed := some ack })
        confirms := { s.confirms with
          tracker := if ack then tracker.ack tag false else tracker.nack tag false } }

def demuxStep (s : State) (a : DemuxAction) : Option State :=
  match s.demux, a with
  | .selecting, .ret tag replyCode => s.demuxReturn tag replyCode
  | .marking tag replyCode, .markReturned =>
    some { s with
      confirms := { s.confirms with tracker := s.confirms.tracker.markReturned tag replyCode }
      demux := .selecting }
  | .selecting, .confirm tag ack => s.demuxConfirm tag ack
  | .selecting, .closeAll =>
    if s.closed then
      some { s with
        confirms := { s.confirms with tracker := s.confirms.tracker.closeAll }
        demux := .exited }
    else
      none
  | _, _ => none

def step (s : State) : Action → Option State
  | .publishOnce messageID => s.acquire false [messageID]
  | .publishBatch msgs => s.publishBatch msgs
  | .call a =>
    match s.call with
    | none => none
    | some k => s.callStep k a
  | .demux a => s.demuxStep a
  | .close => some { s with closed := true }

end State
end Publisher
