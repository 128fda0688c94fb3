import Mathlib.Logic.Function.Basic

/-!
`Topology.expand` (`topology.go`) with the helpers that it shares with `validate`. A string is its
bytes. An argument table is a function, so a nil table is one without entries, and a copy is the
table itself. An argument of another dynamic type has a number for its type and the text that the
verb v prints.
-/

namespace Expand

abbrev Str := List UInt8

scoped instance : LawfulBEq Str := inferInstance

def ascii (s : String) : Str := s.toList.map (fun c => c.val.toUInt8)

inductive Value where
  | string (s : Str)
  | overflowPolicy (s : Str)
  | int64 (n : Int)
  | bool (b : Bool)
  | other (type : Nat) (printed : Str)
  deriving DecidableEq, Repr

-- `fmt.Sprintf` with the verb v
def Value.sprint : Value → Str
  | string s => s
  | overflowPolicy s => s
  | int64 n => ascii (toString n)
  | bool b => ascii (toString b)
  | other _ printed => printed

abbrev Args := Str → Option Value

namespace Args

def nil : Args := fun _ => none

def set (args : Args) (key : Str) (v : Value) : Args := Function.update args key (some v)

def setIf (args : Args) (c : Prop) [Decidable c] (key : Str) (v : Value) : Args :=
  if c then args.set key v else args

end Args

def xDeadLetterExchange : Str := ascii "x-dead-letter-exchange"
def xDeadLetterRoutingKey : Str := ascii "x-dead-letter-routing-key"
def xDeadLetterStrategy : Str := ascii "x-dead-letter-strategy"
def xMessageTTL : Str := ascii "x-message-ttl"
def xMaxLength : Str := ascii "x-max-length"
def xMaxLengthBytes : Str := ascii "x-max-length-bytes"
def xOverflow : Str := ascii "x-overflow"
def xDeliveryLimit : Str := ascii "x-delivery-limit"
def xSingleActiveConsumer : Str := ascii "x-single-active-consumer"
def xQueueType : Str := ascii "x-queue-type"
def xMaxPriority : Str := ascii "x-max-priority"
def alternateExchangeArg : Str := ascii "alternate-exchange"

abbrev ExchangeKind := Str

namespace ExchangeKind

def direct : ExchangeKind := ascii "direct"
def fanout : ExchangeKind := ascii "fanout"
def topic : ExchangeKind := ascii "topic"
def headers : ExchangeKind := ascii "headers"
def delayed : ExchangeKind := ascii "x-delayed-message"

end ExchangeKind

-- empty for the default of the broker
abbrev QueueType := Str

namespace QueueType

def classic : QueueType := ascii "classic"
def quorum : QueueType := ascii "quorum"
def stream : QueueType := ascii "stream"

end QueueType

-- empty when it is not set
abbrev OverflowPolicy := Str

namespace OverflowPolicy

def dropHead : OverflowPolicy := ascii "drop-head"
def rejectPublish : OverflowPolicy := ascii "reject-publish"
def rejectPublishDLX : OverflowPolicy := ascii "reject-publish-dlx"

end OverflowPolicy

structure Exchange where
  name : Str
  kind : ExchangeKind
  durable : Bool := false
  autoDelete : Bool := false
  internal : Bool := false
  noWait : Bool := false
  alternateExchange : Str := []
  args : Args := .nil

structure Queue where
  name : Str
  durable : Bool := false
  exclusive : Bool := false
  autoDelete : Bool := false
  noWait : Bool := false
  type : QueueType := []
  deliveryLimit : Int := 0
  singleActiveConsumer : Bool := false
  maxPriority : Int := 0
  args : Args := .nil

structure Binding where
  exchange : Str
  queue : Str
  routingKey : Str
  noWait : Bool := false
  args : Args := .nil

structure ExchangeBinding where
  source : Str
  destination : Str
  routingKey : Str
  noWait : Bool := false
  args : Args := .nil

-- a time is in nanoseconds
structure DeadLetter where
  source : Str
  exchange : Str := []
  routingKey : Str := []
  ttl : Int := 0
  maxLength : Int := 0
  maxLengthBytes : Int := 0
  overflow : OverflowPolicy := []
  dlqMaxLength : Int := 0
  dlqMessageTTL : Int := 0
  dlqOverflow : OverflowPolicy := []
  dlqUnbounded : Bool := false

structure Topology where
  exchanges : List Exchange := []
  queues : List Queue := []
  bindings : List Binding := []
  deadLetters : List DeadLetter := []
  exchangeBindings : List ExchangeBinding := []

-- `time.Duration.Milliseconds`
def milliseconds (d : Int) : Int := d.tdiv 1000000

def defaultDLQMaxLength : Int := 100000
def defaultDLQMessageTTL : Int := 7 * 24 * 3600 * 1000000000

def dlxStrategyAtLeastOnce : Str := ascii "at-least-once"

def overflowString : Value → Option Str
  | .string s => some s
  | .overflowPolicy s => some s
  | _ => none

namespace DeadLetter

def dlxName (dl : DeadLetter) : Str :=
  if dl.exchange = [] then dl.source ++ ascii ".dlx" else dl.exchange

def dlqName (dl : DeadLetter) : Str := dl.source ++ ascii ".dlq"

def bindRoutingKey (dl : DeadLetter) : Str :=
  if dl.routingKey = [] then ascii "#" else dl.routingKey

def autoDLQArgs (dl : DeadLetter) : Args :=
  if dl.dlqUnbounded then
    .nil
  else
    let maxLen := if dl.dlqMaxLength = 0 then defaultDLQMaxLength else dl.dlqMaxLength
    let ttl := if dl.dlqMessageTTL = 0 then defaultDLQMessageTTL else dl.dlqMessageTTL
    let overflow := if dl.dlqOverflow = [] then .dropHead else dl.dlqOverflow
    ((Args.nil.set xMaxLength (.int64 maxLen)).set xMessageTTL (.int64 (milliseconds ttl))).set
      xOverflow (.string overflow)

def setArgs (dl : DeadLetter) (args : Args) : Args :=
  let args := args.set xDeadLetterExchange (.string dl.dlxName)
  let args := args.setIf (dl.routingKey ≠ []) xDeadLetterRoutingKey (.string dl.routingKey)
  let args := args.setIf (0 < dl.ttl) xMessageTTL (.int64 (milliseconds dl.ttl))
  let args := args.setIf (0 < dl.maxLength) xMaxLength (.int64 dl.maxLength)
  let args := args.setIf (0 < dl.maxLengthBytes) xMaxLengthBytes (.int64 dl.maxLengthBytes)
  args.setIf (dl.overflow ≠ []) xOverflow (.string dl.overflow)

end DeadLetter

-- a later queue takes the place of an earlier one of the same name
def queueIdx (queues : List Queue) : Str → Option Nat :=
  queues.zipIdx.foldl (fun idx qi => Function.update idx qi.1.name (some qi.2)) (fun _ => none)

namespace Queue

def setArgs (q : Queue) (dl : DeadLetter) : Queue := { q with args := dl.setArgs q.args }

-- the arguments for DeliveryLimit, SingleActiveConsumer, Type and MaxPriority
def typedArgs (q : Queue) : Args :=
  let args := q.args.setIf (0 < q.deliveryLimit) xDeliveryLimit (.int64 q.deliveryLimit)
  let args := args.setIf q.singleActiveConsumer xSingleActiveConsumer (.bool true)
  let args := args.setIf (q.type ≠ []) xQueueType (.string q.type)
  args.setIf (0 < q.maxPriority) xMaxPriority (.int64 q.maxPriority)

-- a quorum queue that dead-letters does so at least once, unless the caller has set a strategy
def coupleArgs (type : QueueType) (args : Args) : Args :=
  if type = .quorum ∧ (args xDeadLetterExchange).isSome then
    let strategyVal := args xDeadLetterStrategy
    let args := args.setIf (strategyVal = none) xDeadLetterStrategy (.string dlxStrategyAtLeastOnce)
    let effectiveALO := strategyVal = none ∨ strategyVal = some (.string dlxStrategyAtLeastOnce)
    args.setIf (effectiveALO ∧ args xOverflow = none) xOverflow
      (.string OverflowPolicy.rejectPublish)
  else
    args

def injectArgs (q : Queue) : Queue := { q with args := coupleArgs q.type q.typedArgs }

end Queue

def Exchange.injectArgs (e : Exchange) : Exchange :=
  { e with
    args := e.args.setIf (e.alternateExchange ≠ []) alternateExchangeArg
      (.string e.alternateExchange) }

namespace Topology

def exchNames (t : Topology) : List Str := t.exchanges.map (·.name)

def queueNames (t : Topology) : List Str := t.queues.map (·.name)

def bindingKeys (t : Topology) : List (Str × Str × Str) :=
  t.bindings.map (fun b => (b.exchange, b.queue, b.routingKey))

def addExchange (t : Topology) (name : Str) : Topology :=
  if name ∈ t.exchNames then
    t
  else
    { t with exchanges := t.exchanges ++ [{ name, kind := .topic, durable := true }] }

def addQueue (t : Topology) (name : Str) (args : Args) : Topology :=
  if name ∈ t.queueNames then
    t
  else
    { t with queues := t.queues ++ [{ name, durable := true, args }] }

def addBinding (t : Topology) (exchange queue routingKey : Str) : Topology :=
  if (exchange, queue, routingKey) ∈ t.bindingKeys then
    t
  else
    { t with bindings := t.bindings ++ [{ exchange, queue, routingKey }] }

-- the names and bindings are indexed anew with each entry that is appended, the queues are not
def expandDeadLetter (idx : Str → Option Nat) (out : Topology) (dl : DeadLetter) : Topology :=
  match idx dl.source with
  | none => out
  | some i =>
    let out := { out with queues := out.queues.modify i (·.setArgs dl) }
    let out := out.addExchange dl.dlxName
    let out := out.addQueue dl.dlqName dl.autoDLQArgs
    out.addBinding dl.dlxName dl.dlqName dl.bindRoutingKey

def expandDeadLetters (t : Topology) : Topology :=
  t.deadLetters.foldl (expandDeadLetter (queueIdx t.queues))
    { t with exchanges := t.exchanges.map (·.injectArgs) }

def expand (t : Topology) : Topology :=
  let out := t.expandDeadLetters
  { out with queues := out.queues.map (·.injectArgs) }

-- whether the queue will dead-letter at least once, and the overflow policy that is set for it
def quorumAtLeastOnce (t : Topology) (q : Queue) : Bool × Option Str :=
  if q.type ≠ .quorum then
    (false, none)
  else
    let hasDLX := (q.args xDeadLetterExchange).isSome
    let overflow := (q.args xOverflow).map (fun raw => (overflowString raw).getD raw.sprint)
    match t.deadLetters.foldl
      (fun (acc : Bool × Option Str) dl =>
        if dl.source ≠ q.name then
          acc
        else
          (true, if dl.overflow ≠ [] then some dl.overflow else acc.2)) (hasDLX, overflow) with
    | (hasDLX, overflow) =>
      if !hasDLX then
        (false, none)
      else
        match q.args xDeadLetterStrategy with
        | none => (true, overflow)
        | some v => (v = .string dlxStrategyAtLeastOnce, overflow)

-- the names of the queues that it warns about; the logger may be nil
def warnQuorumAtLeastOnceOverflow (logger : Option Unit) (t : Topology) : List Str :=
  match logger with
  | none => []
  | some _ =>
    t.queues.filterMap (fun q =>
      match t.quorumAtLeastOnce q with
      | (true, none) => some q.name
      | _ => none)

end Topology
end Expand
