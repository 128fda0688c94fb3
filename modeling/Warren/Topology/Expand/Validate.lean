import Warren.Topology.Expand.Impl

/-!
`Topology.validate` (`topology.go`): the first violation of a constraint, as the error that it
returns.
-/

namespace Expand

-- the format and the arguments that follow ErrInvalidOptions
structure InvalidOptions where
  format : String
  args : List Str
  deriving DecidableEq, Repr

def check (violated : Prop) [Decidable violated] (format : String) (args : List Str)
    : Option InvalidOptions :=
  if violated then some ⟨format, args⟩ else none

def first (checks : List (Option InvalidOptions)) : Option InvalidOptions := checks.findSome? id

def validKinds : List ExchangeKind := [.direct, .fanout, .topic, .headers, .delayed]

def validQueueTypes : List QueueType := [[], .classic, .quorum, .stream]

def validOverflow : List OverflowPolicy := [[], .dropHead, .rejectPublish, .rejectPublishDLX]

def xDelayedType : Str := ascii "x-delayed-type"

namespace Exchange

def validateDelayedType (e : Exchange) : Option InvalidOptions :=
  match e.args xDelayedType with
  | none =>
    some ⟨"Exchange %q with Kind=ExchangeDelayed must set Args[\"x-delayed-type\"]", [e.name]⟩
  | some (.string s) =>
    first [
      check (s = [])
        "Exchange %q: Args[\"x-delayed-type\"] must be a non-empty exchange-kind string" [e.name],
      check (s = ExchangeKind.delayed)
        ("Exchange %q: Args[\"x-delayed-type\"] must be a routing kind "
          ++ "(direct, fanout, topic, headers), not %q") [e.name, s],
      check (s ∉ validKinds)
        "Exchange %q: Args[\"x-delayed-type\"] %q is not a valid exchange kind" [e.name, s]]
  | some _ =>
    some ⟨"Exchange %q: Args[\"x-delayed-type\"] must be a non-empty exchange-kind string",
      [e.name]⟩

-- `seen` has the names of the exchanges before it
def validate (seen : List Str) (e : Exchange) : Option InvalidOptions :=
  first [
    check (e.name = []) "Exchange.Name must not be empty" [],
    check (e.name ∈ seen) "duplicate Exchange name %q" [e.name],
    check (e.kind = []) "Exchange %q: Kind must not be empty" [e.name],
    check (e.kind ∉ validKinds) "Exchange %q: unknown Kind %q" [e.name, e.kind],
    first ([alternateExchangeArg, ascii "x-alternate-exchange"].map (fun aeKey =>
      check ((e.args aeKey).isSome)
        "Exchange %q: set the AlternateExchange field instead of Args[%q]" [e.name, aeKey])),
    if e.kind = .delayed then e.validateDelayedType else none]

end Exchange

def managed : List (Str × Str) :=
  [(xQueueType, ascii "Type"), (xDeliveryLimit, ascii "DeliveryLimit"),
    (xSingleActiveConsumer, ascii "SingleActiveConsumer"), (xMaxPriority, ascii "MaxPriority")]

namespace Queue

def validateQuorum (q : Queue) : Option InvalidOptions :=
  first [
    check (q.durable = false) "Queue %q: quorum queues must be Durable" [q.name],
    check q.exclusive "Queue %q: Exclusive is not supported on quorum queues" [q.name],
    check q.autoDelete "Queue %q: AutoDelete is not supported on quorum queues" [q.name]]

def validateStream (q : Queue) : Option InvalidOptions :=
  first [
    check (q.durable = false) "Queue %q: stream queues must be Durable" [q.name],
    check q.singleActiveConsumer
      "Queue %q: SingleActiveConsumer is not supported on stream queues" [q.name],
    check q.exclusive "Queue %q: Exclusive is not supported on stream queues" [q.name],
    check q.autoDelete "Queue %q: AutoDelete is not supported on stream queues" [q.name]]

def validate (seen : List Str) (q : Queue) : Option InvalidOptions :=
  first [
    check (q.name = []) "Queue.Name must not be empty" [],
    check (q.name ∈ seen) "duplicate Queue name %q" [q.name],
    first (managed.map (fun m =>
      check ((q.args m.1).isSome) "Queue %q: set the %s field instead of Args[%q]"
        [q.name, m.2, m.1])),
    check (q.type ∉ validQueueTypes) "Queue %q: unknown Type %q" [q.name, q.type],
    check (0 < q.deliveryLimit ∧ q.type ≠ .quorum)
      "Queue %q: DeliveryLimit requires Type=QueueTypeQuorum" [q.name],
    check (q.maxPriority ≠ 0 ∧ (q.maxPriority < 0 ∨ 255 < q.maxPriority))
      "Queue %q: MaxPriority must be in [1, 255]" [q.name],
    check (0 < q.maxPriority ∧ q.type ≠ [] ∧ q.type ≠ .classic)
      "Queue %q: MaxPriority requires Type=QueueTypeClassic" [q.name],
    if q.type = .quorum then q.validateQuorum else none,
    if q.type = .stream then q.validateStream else none]

end Queue

namespace Topology

def couplingFormat : String :=
  "Queue %q: the at-least-once dead-letter strategy requires x-overflow=%q, "
    ++ "but x-overflow=%q is set — RabbitMQ accepts the mismatch but does not honour at-least-once "
    ++ "(set Overflow=OverflowRejectPublish, or override x-dead-letter-strategy to opt out)"

def couplingErr (name overflow : Str) : InvalidOptions :=
  ⟨couplingFormat, [name, OverflowPolicy.rejectPublish, overflow]⟩

def validateCoupling (t : Topology) (q : Queue) : Option InvalidOptions :=
  match t.quorumAtLeastOnce q with
  | (true, some overflow) =>
    if overflow = OverflowPolicy.rejectPublish then none else some (couplingErr q.name overflow)
  | _ => none

def validateExchanges (seen : List Str) : List Exchange → Option InvalidOptions
  | [] => none
  | e :: es => (e.validate seen).or (validateExchanges (e.name :: seen) es)

def validateQueues (t : Topology) (seen : List Str) : List Queue → Option InvalidOptions
  | [] => none
  | q :: qs =>
    ((q.validate seen).or (t.validateCoupling q)).or (t.validateQueues (q.name :: seen) qs)

def exchKind (t : Topology) : Str → Option ExchangeKind :=
  t.exchanges.foldl (fun kinds e => Function.update kinds e.name (some e.kind)) (fun _ => none)

def validateBinding (t : Topology) (b : Binding) : Option InvalidOptions :=
  first [
    check (b.exchange = []) "Binding.Exchange must not be empty" [],
    check (b.queue = []) "Binding.Queue must not be empty" [],
    check (b.routingKey ≠ [] ∧ t.exchKind b.exchange = some .fanout)
      "Binding to fanout exchange %q must have an empty RoutingKey" [b.exchange]]

def streamQueues (t : Topology) : List Str :=
  (t.queues.filter (fun q => q.type = .stream)).map (·.name)

def validateDeadLetter (t : Topology) (dl : DeadLetter) : Option InvalidOptions :=
  first [
    check (dl.source = []) "DeadLetter.Source must not be empty" [],
    check (dl.source ∈ t.streamQueues)
      "DeadLetter.Source %q: dead-lettering is not supported on stream queues" [dl.source],
    check (dl.overflow ∉ validOverflow)
      "DeadLetter.Source %q: unknown Overflow policy %q" [dl.source, dl.overflow],
    check (dl.dlqOverflow ∉ validOverflow)
      "DeadLetter.Source %q: unknown DLQOverflow policy %q" [dl.source, dl.dlqOverflow]]

end Topology

def ExchangeBinding.validate (eb : ExchangeBinding) : Option InvalidOptions :=
  first [
    check (eb.source = []) "ExchangeBinding.Source must not be empty" [],
    check (eb.destination = []) "ExchangeBinding.Destination must not be empty" []]

def Topology.validate (t : Topology) : Option InvalidOptions :=
  first [
    Topology.validateExchanges [] t.exchanges,
    t.validateQueues [] t.queues,
    t.bindings.findSome? t.validateBinding,
    t.exchangeBindings.findSome? ExchangeBinding.validate,
    t.deadLetters.findSome? t.validateDeadLetter]

end Expand
