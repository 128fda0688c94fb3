import Warren.Errors.Paths
import Warren.Publisher.Returns.Impl

/-!
`PublishBatch` (`publisher.go`) from the moment at which it has acquired a channel, with its result
slice and the pairs of tag and index. What the goroutine of `startConfirmDemux` receives is left
open. A tag whose publish has failed is handed out again. The log is kept for the statements only.
-/

namespace Slots

open Errors (Err LibErr CtxErr Sentinel)
open Publisher (MessageID WaitStep Demux)

inductive Frame where
  | markReturned (tag : Nat) (replyCode : UInt16)
  | ack (tag : Nat) (multiple : Bool)
  | nack (tag : Nat) (multiple : Bool)
  | closeAll
  deriving DecidableEq, Repr

def Frame.action : Frame → Confirms.Action
  | markReturned tag replyCode => .markReturned tag replyCode
  | ack tag multiple => .ack tag multiple
  | nack tag multiple => .nack tag multiple
  | closeAll => .closeAll

-- a tag is marked when `LoadAndDelete` has given it
def Frame.demux : Frame → Demux → Option Demux
  | markReturned tag replyCode, d => if d = .marking tag replyCode then some .selecting else none
  | closeAll, d => if d = .selecting then some .exited else none
  | _, d => if d = .selecting then some .selecting else none

-- what has happened to the messages of a batch, with the index of the message where it is known
inductive Event where
  | register (idx tag : Nat) (err : Option Confirms.Err)
  | publish (idx tag : Nat) (err : Option LibErr)
  | frame (f : Frame)
  | wait (tag : Nat) (err : Option Confirms.Err)

inductive Phase where
  | looping
  | registering (messageID : MessageID) (tag : Nat)
  | deregistering (messageID : MessageID) (err : Confirms.Err)
  | publishing (tag : Nat)
  | cancelling (tag : Nat) (err : LibErr)
  | waiting (todo : List (Nat × Nat))
  | cleaning (messageIDs : List MessageID)
  | returned (err : Option Err)

structure Call where
  encoded : List (Except Err MessageID)
  ctxErr : CtxErr
  index : Nat
  published : List (Nat × Nat)
  results : List (Option Err)
  phase : Phase
  log : List Event

def encodeErr : Except Err MessageID → Option Err
  | .error err => some err
  | .ok _ => none

def encodedID : Except Err MessageID → Option MessageID
  | .error _ => none
  | .ok messageID => some messageID

-- the error of which `Publisher.Err` keeps the kind
def errOf (ctxErr : CtxErr) (publishErr : LibErr) : Publisher.Err → Err
  | .confirmTimeout => Sentinel.confirmTimeout.err
  | .publishNacked => Sentinel.publishNacked.err
  | .channelClosed => Sentinel.channelClosed.err
  | .unroutable replyCode => Errors.wrapCode replyCode Sentinel.unroutable.err
  | .ctx => ctxErr.err
  | .amqp => Errors.wrapAMQPError publishErr.err

theorem mapConfirmError_eq (ctxErr : CtxErr) (publishErr : LibErr) (err : Confirms.Err)
    : Errors.mapConfirmError ctxErr err =
        errOf ctxErr publishErr (Publisher.mapConfirmError err) := by
  cases err <;> rfl

structure State where
  mandatory : Bool
  confirmTimeout : Int
  confirms : Confirms.State
  returnTagMap : String → Option Nat
  demux : Demux
  nextPublishSeqNo : Nat
  call : Option Call

inductive CallAction where
  | next
  | register
  | deregister
  | publish (err : Option LibErr)
  | cancel
  | wait (w : WaitStep)
  | waited
  | clean
  | ret
  | release

inductive Action where
  | start (encoded : List (Except Err MessageID)) (ctxErr : CtxErr)
  | call (a : CallAction)
  | frame (f : Frame)
  | loadAndDelete (messageID : String) (replyCode : UInt16)

def Action.isStart : Action → Bool
  | start _ _ => true
  | _ => false

namespace Call

-- after the client-side failures have gone into the results
def start (encoded : List (Except Err MessageID)) (ctxErr : CtxErr) : Call where
  encoded
  ctxErr
  index := 0
  published := []
  results := encoded.map encodeErr
  phase := .looping
  log := []

def record (k : Call) (e : Event) : Call := { k with log := k.log ++ [e] }

def setErr (k : Call) (idx : Nat) (err : Err) : Call :=
  { k with results := k.results.set idx (some err) }

def advance (k : Call) : Call := { k with index := k.index + 1, phase := .looping }

def waitResult (k : Call) (tag idx : Nat) (todo : List (Nat × Nat)) (err : Option Confirms.Err)
    : Call :=
  let k := { k.record (.wait tag err) with phase := .waiting todo }
  match err with
  | none => k
  | some err => k.setErr idx (Errors.mapConfirmError k.ctxErr err)

end Call

namespace State

def init (mandatory : Bool) (confirmTimeout : Int) : State where
  mandatory
  confirmTimeout
  confirms := .init
  returnTagMap := fun _ => none
  demux := .selecting
  nextPublishSeqNo := 1
  call := none

-- `PublishBatch` does not acquire a channel when every message has failed
def start (s : State) (encoded : List (Except Err MessageID)) (ctxErr : CtxErr) : Option State :=
  match s.call with
  | some _ => none
  | none =>
    if encoded.all (fun e => (encodeErr e).isSome) then
      none
    else
      some { s with call := some (.start encoded ctxErr) }

def store (s : State) (messageID : MessageID) (tag : Nat) : State :=
  if s.mandatory then
    { s with returnTagMap := Function.update s.returnTagMap messageID.val (some tag) }
  else
    s

def delete (s : State) (messageID : String) : State :=
  { s with returnTagMap := Function.update s.returnTagMap messageID none }

def next (s : State) (k : Call) : State :=
  match k.encoded[k.index]? with
  | none => { s with call := some { k with phase := .waiting k.published } }
  | some (.error _) => { s with call := some k.advance }
  | some (.ok messageID) =>
    { s.store messageID s.nextPublishSeqNo with
      call := some { k with phase := .registering messageID s.nextPublishSeqNo } }

def register (s : State) (k : Call) (messageID : MessageID) (tag : Nat) : State :=
  match s.confirms.tracker.register tag with
  | (tracker, err) =>
    { s with
      confirms := { s.confirms with tracker }
      call := some { k.record (.register k.index tag err) with
        phase :=
          match err with
          | none => .publishing tag
          | some err => .deregistering messageID err } }

def deregister (s : State) (k : Call) (messageID : MessageID) (err : Confirms.Err) : State :=
  { (if s.mandatory then s.delete messageID.val else s) with
    call := some (k.setErr k.index (Errors.mapConfirmError k.ctxErr err)).advance }

def publish (s : State) (k : Call) (tag : Nat) (err : Option LibErr) : State :=
  let k := k.record (.publish k.index tag err)
  match err with
  | none =>
    { s with
      nextPublishSeqNo := s.nextPublishSeqNo + 1
      call := some { k with published := k.published ++ [(tag, k.index)] }.advance }
  | some err => { s with call := some { k with phase := .cancelling tag err } }

def cancel (s : State) (k : Call) (tag : Nat) (err : LibErr) : State :=
  { s with
    confirms := { s.confirms with tracker := s.confirms.tracker.cancel tag }
    call := some (k.setErr k.index (Errors.wrapAMQPError err.err)).advance }

def wait (s : State) (k : Call) (tag idx : Nat) (todo : List (Nat × Nat)) (w : WaitStep)
    : Option State :=
  match s.confirms.step (w.action tag s.confirmTimeout) with
  | none => none
  | some confirms =>
    match confirms.results.drop s.confirms.results.length with
    | [] => some { s with confirms }
    | (_, err) :: _ => some { s with confirms, call := some (k.waitResult tag idx todo err) }

def partialBatch (results : List (Option Err)) : Option Err :=
  if results.any Option.isSome then some Sentinel.partialBatch.err else none

def callStep (s : State) (k : Call) (a : CallAction) : Option State :=
  match k.phase, a with
  | .looping, .next => some (s.next k)
  | .registering messageID tag, .register => some (s.register k messageID tag)
  | .deregistering messageID err, .deregister => some (s.deregister k messageID err)
  | .publishing tag, .publish err => some (s.publish k tag err)
  | .cancelling tag err, .cancel => some (s.cancel k tag err)
  | .waiting ((tag, idx) :: todo), .wait w => s.wait k tag idx todo w
  | .waiting [], .waited =>
    some { s with
      call := some { k with
        phase := .cleaning (if s.mandatory then k.encoded.filterMap encodedID else []) } }
  | .cleaning (messageID :: messageIDs), .clean =>
    some { s.delete messageID.val with call := some { k with phase := .cleaning messageIDs } }
  | .cleaning [], .ret =>
    some { s with call := some { k with phase := .returned (partialBatch k.results) } }
  | .returned _, .release => some { s with call := none }
  | _, _ => none

def frame (s : State) (f : Frame) : Option State :=
  (f.demux s.demux).bind (fun demux =>
    (s.confirms.step f.action).map (fun confirms =>
      { s with confirms, demux, call := s.call.map (·.record (.frame f)) }))

def loadAndDelete (s : State) (messageID : String) (replyCode : UInt16) : Option State :=
  if s.demux = .selecting ∧ messageID ≠ "" then
    some { s.delete messageID with
      demux :=
        match s.returnTagMap messageID with
        | none => .selecting
        | some tag => .marking tag replyCode }
  else
    none

def step (s : State) : Action → Option State
  | .start encoded ctxErr => s.start encoded ctxErr
  | .call a => s.call.bind (fun k => s.callStep k a)
  | .frame f => s.frame f
  | .loadAndDelete messageID replyCode => s.loadAndDelete messageID replyCode

end State
end Slots
