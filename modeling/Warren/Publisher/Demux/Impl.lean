import Warren.Publisher.Returns.Impl

/-!
How the frames of the broker reach the goroutine of `startConfirmDemux` (`publisher.go`). The reader
of the connection hands over a basic.return on `returnCh`, which has no buffer, and puts a confirm
into `confirmCh`, which has one. The calls that use the channel take the steps of `Publisher.State`.
-/

namespace Publisher

inductive Frame where
  -- the tag says which message is returned, it is not part of the frame
  | ret (tag : Nat) (messageID : String) (replyCode : UInt16)
  | confirm (deliveryTag : Nat) (ack : Bool)
  deriving DecidableEq, Repr

structure Confirmation where
  deliveryTag : Nat
  ack : Bool
  deriving DecidableEq, Repr

inductive ReturnCh where
  | open
  | closed
  | nil
  deriving DecidableEq, Repr

inductive Event where
  | onReturn (tag : Nat) (replyCode : UInt16)
  | markReturned (tag : Nat) (replyCode : UInt16)
  | confirm (tag : Nat) (ack : Bool)
  | closeAll
  deriving DecidableEq, Repr

structure Wired (buf : Nat) where
  pub : State
  onReturn : Bool
  socket : List Frame
  reader : Option Frame
  returnCh : ReturnCh
  confirmCh : Chan Confirmation buf
  hand : Option Frame
  called : Bool
  log : List Event

namespace Wired

inductive Action where
  | publishOnce (messageID : MessageID)
  | publishBatch (msgs : List Message)
  | call (a : CallAction)
  | brokerReturn (tag : Nat) (replyCode : UInt16)
  | brokerConfirm (tag : Nat) (ack : Bool)
  | read
  | sendConfirm
  | shutdown
  | recvReturn
  | recvReturnClosed
  | recvConfirm
  | recvConfirmClosed
  | lookUp
  | callOnReturn
  | markReturned
  | resolve
  deriving DecidableEq

variable {buf : Nat}

def init (mandatory onReturn : Bool) (confirmTimeout publishBatchMaxSize : Int) : Wired buf where
  pub := .init mandatory confirmTimeout publishBatchMaxSize
  onReturn
  socket := []
  reader := none
  returnCh := .open
  confirmCh := .make
  hand := none
  called := false
  log := []

def publisher (s : Wired buf) (a : Publisher.Action) : Option (Wired buf) :=
  (s.pub.step a).map (fun pub => { s with pub })

def answer (s : Wired buf) (tag : Nat) (p : Publishing) (f : Frame) : Wired buf :=
  { s with
    pub := { s.pub with broker := Function.update s.pub.broker tag (some p) }
    socket := s.socket ++ [f] }

-- the broker returns and confirms what it was sent, each at most once
def brokerReturn (s : Wired buf) (tag : Nat) (replyCode : UInt16) : Option (Wired buf) :=
  match s.pub.broker tag with
  | none => none
  | some p =>
    if s.pub.mandatory ∧ p.returned = none then
      some (s.answer tag { p with returned := some replyCode }
        (.ret tag p.attempt.messageID.val replyCode))
    else
      none

def brokerConfirm (s : Wired buf) (tag : Nat) (ack : Bool) : Option (Wired buf) :=
  match s.pub.broker tag with
  | none => none
  | some p =>
    if p.confirmed = none then
      some (s.answer tag { p with confirmed := some ack } (.confirm tag ack))
    else
      none

def read (s : Wired buf) : Option (Wired buf) :=
  match s.reader, s.socket with
  | none, f :: socket => if s.pub.closed then none else some { s with reader := some f, socket }
  | _, _ => none

def sendConfirm (s : Wired buf) : Option (Wired buf) :=
  match s.reader with
  | some (.confirm deliveryTag ack) =>
    (s.confirmCh.trySend ⟨deliveryTag, ack⟩).map (fun confirmCh => { s with confirmCh, reader := none })
  | _ => none

-- the channels are closed while nothing is being sent on them
def shutdown (s : Wired buf) : Option (Wired buf) :=
  if s.reader = none ∧ s.pub.closed = false then
    some { s with
      pub := { s.pub with closed := true }
      returnCh := .closed
      confirmCh := s.confirmCh.close }
  else
    none

def selecting (s : Wired buf) : Bool :=
  s.pub.demux = .selecting ∧ s.hand = none

-- the send of the reader and the receive of the goroutine are one step
def recvReturn (s : Wired buf) : Option (Wired buf) :=
  match s.reader with
  | some (.ret tag messageID replyCode) =>
    if s.selecting ∧ s.returnCh = .open then
      some { s with reader := none, hand := some (.ret tag messageID replyCode) }
    else
      none
  | _ => none

def recvReturnClosed (s : Wired buf) : Option (Wired buf) :=
  if s.selecting ∧ s.returnCh = .closed then some { s with returnCh := .nil } else none

def recvConfirm (s : Wired buf) : Option (Wired buf) :=
  if s.selecting then
    match s.confirmCh.recv with
    | some (some c, confirmCh) =>
      some { s with confirmCh, hand := some (.confirm c.deliveryTag c.ack) }
    | _ => none
  else
    none

def recvConfirmClosed (s : Wired buf) : Option (Wired buf) :=
  if s.selecting then
    match s.confirmCh.recv with
    | some (none, _) =>
      some { s with
        pub := { s.pub with
          confirms := { s.pub.confirms with tracker := s.pub.confirms.tracker.closeAll }
          demux := .exited }
        log := s.log ++ [.closeAll] }
    | _ => none
  else
    none

-- `returnTagMap.LoadAndDelete`
def lookUp (s : Wired buf) : Option (Wired buf) :=
  match s.hand with
  | some (.ret _ messageID replyCode) =>
    if messageID ≠ "" then
      match s.pub.returnTagMap messageID with
      | none => some { s with hand := none }
      | some t =>
        some { s with
          pub := { s.pub with
            returnTagMap := Function.update s.pub.returnTagMap messageID none
            demux := .marking t replyCode }
          hand := none
          called := false }
    else
      some { s with hand := none }
  | _ => none

def callOnReturn (s : Wired buf) : Option (Wired buf) :=
  match s.pub.demux, s.called with
  | .marking t replyCode, false =>
    some { s with
      called := true
      log := if s.onReturn then s.log ++ [.onReturn t replyCode] else s.log }
  | _, _ => none

def markReturned (s : Wired buf) : Option (Wired buf) :=
  match s.pub.demux, s.called with
  | .marking t replyCode, true =>
    some { s with
      pub := { s.pub with
        confirms := { s.pub.confirms with
          tracker := s.pub.confirms.tracker.markReturned t replyCode }
        demux := .selecting }
      log := s.log ++ [.markReturned t replyCode] }
  | _, _ => none

def resolve (s : Wired buf) : Option (Wired buf) :=
  match s.hand with
  | some (.confirm deliveryTag ack) =>
    let tracker := s.pub.confirms.tracker
    some { s with
      pub := { s.pub with
        confirms := { s.pub.confirms with
          tracker := if ack then tracker.ack deliveryTag false else tracker.nack deliveryTag false } }
      hand := none
      log := s.log ++ [.confirm deliveryTag ack] }
  | _ => none

def step (s : Wired buf) : Action → Option (Wired buf)
  | .publishOnce messageID => s.publisher (.publishOnce messageID)
  | .publishBatch msgs => s.publisher (.publishBatch msgs)
  | .call a => s.publisher (.call a)
  | .brokerReturn tag replyCode => s.brokerReturn tag replyCode
  | .brokerConfirm tag ack => s.brokerConfirm tag ack
  | .read => s.read
  | .sendConfirm => s.sendConfirm
  | .shutdown => s.shutdown
  | .recvReturn => s.recvReturn
  | .recvReturnClosed => s.recvReturnClosed
  | .recvConfirm => s.recvConfirm
  | .recvConfirmClosed => s.recvConfirmClosed
  | .lookUp => s.lookUp
  | .callOnReturn => s.callOnReturn
  | .markReturned => s.markReturned
  | .resolve => s.resolve

end Wired
end Publisher
