import Warren.Base.Run
import Warren.Confirms.Tracker.Acked
import Warren.Consumer.Dispatch.Steps
import Warren.Publisher.Returns.Impl

/-!
`Replier` (`rpc_replier.go`): the requests that its consumer dispatches to the handler of
`makeRawHandler`, and the `replyPublisher` that they share, whose mutex is held from
`ensureEntryLocked` to the end of `PublishWithContext`. The `ReplyHandler`, `OnError` and the codec
may panic.
-/

namespace Replier

open Dispatch

structure Config where
  tag : Bytes
  onError : Bool
  knownHasDLX : Bool
  confirmTimeout : Int
  deriving DecidableEq, Repr

def Config.consumer (cfg : Config) : Consumer where
  tag := cfg.tag
  maxRedeliveries := 0
  counterBDisabled := false
  brokerAutoAck := false
  handlerTimeout := false
  timeoutVerdict := .nackNoRequeue

structure Request where
  delivery : Delivery
  replyTo : String
  correlationID : String
  deriving DecidableEq, Repr

structure Reply (Body : Type) where
  replyTo : String
  correlationID : String
  body : Body
  deriving DecidableEq, Repr

-- a `publisherEntry`
structure Entry (Body : Type) where
  confirms : Confirms.State
  nextPublishSeqNo : Nat
  closeCh : Bool
  sent : Nat → Option (Reply Body)
  acked : Nat → Bool

inductive Phase (Body : Type) where
  | handling
  | reporting
  | dropping
  | encoding
  | locking (body : Body)
  | ensuring (body : Body)
  | registering (e : Nat) (body : Body)
  | publishing (e tag : Nat) (body : Body)
  | waiting (e tag : Nat)
  | confirmed
  | deciding
  | ended
  deriving DecidableEq, Repr

structure Serving (Body : Type) where
  request : Request
  dispatch : Dispatching
  phase : Phase Body
  reply : Option (Nat × Nat)

structure State (Body : Type) where
  mu : Option Nat
  -- `rp.entry`, if `rp.open`
  entry : Option Nat
  entries : List (Entry Body)
  requests : List (Serving Body)
  -- replier_drop_no_dlx_total
  dropNoDLX : Nat

inductive HandlerAction (Body : Type) where
  | returns
  | fails
  | panics
  | reported
  | encoded (body : Body)
  | encodeErr
  | lock
  | ensureEntry (opens : Bool)
  | register
  | publish (ok : Bool)
  | wait (w : Publisher.WaitStep)
  | nackDrop
  | ack
  | verdict (a : CallAction)
  | returnNil
  deriving DecidableEq, Repr

inductive Action (Body : Type) where
  | deliver (request : Request) (chanDone : Bool) (ctx : Option CtxEnd)
  | dispatch (i : Nat) (a : StepAction)
  | handler (i : Nat) (a : HandlerAction Body)
  | confirm (e tag : Nat) (multiple ack : Bool)
  | closeAll (e : Nat)
  | closeCh (e : Nat)
  | closePublisher
  deriving DecidableEq

variable {Body : Type}

namespace Entry

def new : Entry Body where
  confirms := .init
  nextPublishSeqNo := 1
  closeCh := false
  sent := fun _ => none
  acked := fun _ => false

def track (entry : Entry Body) (a : Confirms.Action) : Option (Entry Body) :=
  (entry.confirms.step a).map (fun confirms =>
    { entry with confirms, acked := entry.confirms.ackedAfter entry.acked a })

def send (entry : Entry Body) (tag : Nat) (reply : Reply Body) : Entry Body :=
  { entry with
    nextPublishSeqNo := entry.nextPublishSeqNo + 1
    sent := Function.update entry.sent tag (some reply) }

end Entry

def ofHandler : StepAction → Bool
  | .handlerReturns _ => true
  | .begin _ _ => true
  | .call (some _) _ => true
  | _ => false

def Config.report (cfg : Config) : Phase Body := if cfg.onError then .reporting else .dropping

namespace State

def init : State Body where
  mu := none
  entry := none
  entries := []
  requests := []
  dropNoDLX := 0

def setServing (s : State Body) (i : Nat) (r : Serving Body) : State Body :=
  { s with requests := s.requests.set i r }

def goto (s : State Body) (i : Nat) (r : Serving Body) (phase : Phase Body) : State Body :=
  s.setServing i { r with phase }

def setEntry (s : State Body) (e : Nat) (entry : Entry Body) : State Body :=
  { s with entries := s.entries.set e entry }

def trackEntry (s : State Body) (e : Nat) (a : Confirms.Action) : Option (State Body) :=
  (s.entries[e]?.bind (·.track a)).map (s.setEntry e)

def deliveryStep (cfg : Config) (s : State Body) (i : Nat) (r : Serving Body) (phase : Phase Body)
    (a : StepAction) : Option (State Body) :=
  (r.dispatch.step cfg.consumer false a).map (fun dispatch =>
    s.setServing i { r with dispatch, phase })

-- `safeCallHandler` recovers
def panic (cfg : Config) (s : State Body) (i : Nat) (r : Serving Body) : Option (State Body) :=
  s.deliveryStep cfg i r .ended (.handlerReturns (some ⟨[]⟩))

def openEntry (s : State Body) (opens : Bool) : State Body × Option Nat :=
  if opens then
    ({ s with entry := some s.entries.length, entries := s.entries ++ [.new] }, some s.entries.length)
  else
    ({ s with entry := none }, none)

def ensureEntryLocked (s : State Body) (opens : Bool) : State Body × Option Nat :=
  match s.entry with
  | none => s.openEntry opens
  | some e => if s.entries[e]?.any (·.closeCh) then s.openEntry opens else (s, some e)

def fail (s : State Body) (i : Nat) (r : Serving Body) : State Body :=
  { s with mu := none }.goto i r .dropping

def ensureEntry (s : State Body) (i : Nat) (r : Serving Body) (body : Body) (opens : Bool)
    : State Body :=
  match s.ensureEntryLocked opens with
  | (s, none) => s.fail i r
  | (s, some e) => s.goto i r (.registering e body)

def register (s : State Body) (i : Nat) (r : Serving Body) (e : Nat) (body : Body)
    : Option (State Body) :=
  match s.entries[e]? with
  | none => none
  | some entry =>
    match s.trackEntry e (.register entry.nextPublishSeqNo) with
    | none => none
    | some s =>
      if entry.confirms.tracker.closed then
        some (s.fail i r)
      else
        some (s.goto i r (.publishing e entry.nextPublishSeqNo body))

def publish (s : State Body) (i : Nat) (r : Serving Body) (e tag : Nat) (body : Body) (ok : Bool)
    : Option (State Body) :=
  match s.entries[e]? with
  | none => none
  | some entry =>
    if ok then
      let reply := ⟨r.request.replyTo, r.request.correlationID, body⟩
      some ({ s.setEntry e (entry.send tag reply) with mu := none }.setServing i
        { r with phase := .waiting e tag, reply := some (e, tag) })
    else
      (s.trackEntry e (.cancel tag)).map (·.fail i r)

def wait (cfg : Config) (s : State Body) (i : Nat) (r : Serving Body) (e tag : Nat)
    (w : Publisher.WaitStep) : Option (State Body) :=
  match s.entries[e]? with
  | none => none
  | some entry =>
    match entry.track (w.action tag cfg.confirmTimeout) with
    | none => none
    | some entry' =>
      match entry'.confirms.results.drop entry.confirms.results.length with
      | [] => some (s.setEntry e entry')
      | (_, none) :: _ => some ((s.setEntry e entry').goto i r .confirmed)
      | (_, some _) :: _ => some ((s.setEntry e entry').goto i r .dropping)

def nackDrop (cfg : Config) (s : State Body) (i : Nat) (r : Serving Body) : Option (State Body) :=
  let s := if cfg.knownHasDLX then s else { s with dropNoDLX := s.dropNoDLX + 1 }
  s.deliveryStep cfg i r .deciding (.begin 0 (.nack false))

def handlerStep (cfg : Config) (s : State Body) (i : Nat) (r : Serving Body) (a : HandlerAction Body)
    : Option (State Body) :=
  match a, r.phase with
  | .returns, .handling =>
    some (s.goto i r (if r.request.replyTo = "" then cfg.report else .encoding))
  | .fails, .handling => some (s.goto i r cfg.report)
  | .panics, .handling => s.panic cfg i r
  | .reported, .reporting => some (s.goto i r .dropping)
  | .panics, .reporting => s.panic cfg i r
  | .encoded body, .encoding => some (s.goto i r (.locking body))
  | .encodeErr, .encoding => some (s.goto i r cfg.report)
  -- `ContentType` of the codec is not called under `safeEncodeBody`
  | .panics, .encoding => s.panic cfg i r
  | .lock, .locking body =>
    if s.mu = none then some ({ s with mu := some i }.goto i r (.ensuring body)) else none
  | .ensureEntry opens, .ensuring body => some (s.ensureEntry i r body opens)
  | .register, .registering e body => s.register i r e body
  | .publish ok, .publishing e tag body => s.publish i r e tag body ok
  | .wait w, .waiting e tag => s.wait cfg i r e tag w
  | .nackDrop, .dropping => s.nackDrop cfg i r
  | .ack, .confirmed => s.deliveryStep cfg i r .deciding (.begin 0 .ack)
  | .verdict a, .deciding => s.deliveryStep cfg i r .deciding (.call (some 0) a)
  | .returnNil, .deciding =>
    if r.dispatch.calls (some 0) = .returned then
      s.deliveryStep cfg i r .ended (.handlerReturns none)
    else
      none
  | _, _ => none

def step (cfg : Config) (s : State Body) : Action Body → Option (State Body)
  | .deliver request chanDone ctx =>
    some { s with
      requests := s.requests ++
        [⟨request, .init request.delivery .new chanDone ctx, .handling, none⟩] }
  | .dispatch i a =>
    match s.requests[i]? with
    | none => none
    | some r => if ofHandler a then none else s.deliveryStep cfg i r r.phase a
  | .handler i a =>
    match s.requests[i]? with
    | none => none
    | some r => if r.dispatch.handler = .running then s.handlerStep cfg i r a else none
  | .confirm e tag multiple ack =>
    s.trackEntry e (if ack then .ack tag multiple else .nack tag multiple)
  | .closeAll e => s.trackEntry e .closeAll
  | .closeCh e => (s.entries[e]?).map (fun entry => s.setEntry e { entry with closeCh := true })
  | .closePublisher => if s.mu = none then some { s with entry := none } else none

end State
end Replier
