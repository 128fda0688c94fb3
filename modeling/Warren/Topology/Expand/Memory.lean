import Warren.Base.TableHeap
import Warren.Topology.Expand.Impl

/-!
`expand` over argument tables in memory: every assignment goes through the reference of a table.
-/

namespace Expand

open TableHeap (Cell deref copy)

abbrev Heap := TableHeap.Heap Str Value

inductive Pos where
  | exchange (i : Nat)
  | queue (i : Nat)
  | binding (i : Nat)
  | exchangeBinding (i : Nat)
  deriving DecidableEq, Repr

-- the elements of the lists are without their tables, the reference of each is in `args`
structure Memory where
  heap : Heap
  out : Topology
  args : Pos → Option Nat

namespace DeadLetter

def writes (dl : DeadLetter) : List (Str × Value) :=
  [(xDeadLetterExchange, .string dl.dlxName)]
    ++ (if dl.routingKey ≠ [] then [(xDeadLetterRoutingKey, .string dl.routingKey)] else [])
    ++ (if 0 < dl.ttl then [(xMessageTTL, .int64 (milliseconds dl.ttl))] else [])
    ++ (if 0 < dl.maxLength then [(xMaxLength, .int64 dl.maxLength)] else [])
    ++ (if 0 < dl.maxLengthBytes then [(xMaxLengthBytes, .int64 dl.maxLengthBytes)] else [])
    ++ (if dl.overflow ≠ [] then [(xOverflow, .string dl.overflow)] else [])

def autoDLQWrites (dl : DeadLetter) : List (Str × Value) :=
  if dl.dlqUnbounded then
    []
  else
    [(xMaxLength,
        .int64 (if dl.dlqMaxLength = 0 then defaultDLQMaxLength else dl.dlqMaxLength)),
      (xMessageTTL,
        .int64 (milliseconds
          (if dl.dlqMessageTTL = 0 then defaultDLQMessageTTL else dl.dlqMessageTTL))),
      (xOverflow, .string (if dl.dlqOverflow = [] then OverflowPolicy.dropHead else dl.dlqOverflow))]

end DeadLetter

def Exchange.writes (e : Exchange) : List (Str × Value) :=
  if e.alternateExchange ≠ [] then [(alternateExchangeArg, .string e.alternateExchange)] else []

namespace Queue

def typedWrites (q : Queue) : List (Str × Value) :=
  (if 0 < q.deliveryLimit then [(xDeliveryLimit, .int64 q.deliveryLimit)] else [])
    ++ (if q.singleActiveConsumer then [(xSingleActiveConsumer, .bool true)] else [])
    ++ (if q.type ≠ [] then [(xQueueType, .string q.type)] else [])
    ++ (if 0 < q.maxPriority then [(xMaxPriority, .int64 q.maxPriority)] else [])

def coupleWrites (type : QueueType) (lookup : Str → Option (Cell Value)) : List (Str × Value) :=
  if type = .quorum ∧ (lookup xDeadLetterExchange).isSome then
    let strategyVal := lookup xDeadLetterStrategy
    let effectiveALO := strategyVal = none
      ∨ strategyVal = some (.val (.string dlxStrategyAtLeastOnce))
    (if strategyVal = none then [(xDeadLetterStrategy, .string dlxStrategyAtLeastOnce)] else [])
      ++ (if effectiveALO ∧ lookup xOverflow = none then
          [(xOverflow, .string OverflowPolicy.rejectPublish)] else [])
  else
    []

end Queue

namespace Memory

def make (s : Memory) (p : Pos) : Memory :=
  match s.args p with
  | some _ => s
  | none =>
    { s with heap := s.heap ++ [∅], args := Function.update s.args p (some s.heap.length) }

-- an assignment to a table that is nil panics
def put (p : Pos) (s : Memory) (kv : Str × Value) : Memory :=
  match s.args p with
  | none => s
  | some r => { s with heap := TableHeap.write s.heap r kv.1 (.val kv.2) }

def write (s : Memory) (p : Pos) (kvs : List (Str × Value)) : Memory :=
  if kvs = [] then s else kvs.foldl (put p) (s.make p)

def lookup (s : Memory) (p : Pos) (k : Str) : Option (Cell Value) :=
  (deref s.heap (s.args p)).bind (·.lookup k)

-- the table of the caller is replaced by its copy, unless it is nil
def copyArgs (n : Nat) (s : Memory) (p : Pos) : Option Memory :=
  match s.args p with
  | none => some s
  | some r =>
    match copy n s.heap (some r) with
    | none => none
    | some (heap, r) => some { s with heap, args := Function.update s.args p (some r) }

def writesAt (t : Topology) : Pos → List (Str × Value)
  | .exchange i =>
    match t.exchanges[i]? with
    | none => []
    | some e => e.writes
  | _ => []

def copyElem (n : Nat) (s : Memory) (p : Pos) : Option Memory :=
  (s.copyArgs n p).map (fun s => s.write p (writesAt s.out p))

def positions (t : Topology) : List Pos :=
  (List.range t.bindings.length).map .binding
    ++ (List.range t.exchangeBindings.length).map .exchangeBinding
    ++ (List.range t.exchanges.length).map .exchange
    ++ (List.range t.queues.length).map .queue

def addQueue (s : Memory) (name : Str) (kvs : List (Str × Value)) : Memory :=
  if name ∈ s.out.queueNames then
    s
  else
    { s with out := s.out.addQueue name .nil }.write (.queue s.out.queues.length) kvs

def expandDeadLetter (idx : Str → Option Nat) (s : Memory) (dl : DeadLetter) : Memory :=
  match idx dl.source with
  | none => s
  | some i =>
    let s := s.write (.queue i) dl.writes
    let s := { s with out := s.out.addExchange dl.dlxName }
    let s := s.addQueue dl.dlqName dl.autoDLQWrites
    { s with out := s.out.addBinding dl.dlxName dl.dlqName dl.bindRoutingKey }

def injectArgs (s : Memory) (i : Nat) : Memory :=
  match s.out.queues[i]? with
  | none => s
  | some q =>
    let s := s.write (.queue i) q.typedWrites
    s.write (.queue i) (Queue.coupleWrites q.type (s.lookup (.queue i)))

def expand (n : Nat) (s : Memory) : Option Memory :=
  ((positions s.out).foldlM (copyElem n) s).map (fun s =>
    let s := s.out.deadLetters.foldl (expandDeadLetter (queueIdx s.out.queues)) s
    (List.range s.out.queues.length).foldl injectArgs s)

end Memory
end Expand
