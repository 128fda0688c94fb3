import Warren.Publisher.Pool.Impl

/-!
`Publish`, `PublishBatch` and `Close` of one `Publisher` (`publisher.go`) over its pools, with the
drains that the reconnect hooks start. Each critical section of `mu` is one step. Which errors
occur, which pool is selected and which errors are retried is left open.
-/

namespace Closing

inductive Precheck where
  | passed
  | empty
  | tooLarge
  | duplicate
  deriving DecidableEq, Repr

inductive Kind where
  | publish
  | batch (precheck : Precheck)
  deriving DecidableEq, Repr

inductive Result where
  | nil
  | alreadyClosed
  | batchTooLarge
  | duplicateID
  | encodeErr
  | rateLimited
  | barrierErr
  | acquireErr (r : Pool.Outcome)
  -- `Register`, `PublishWithContext` or `Wait` has failed, or a slot of the batch is not nil
  | publishErr
  deriving DecidableEq, Repr

-- `k` is a pool, and `j` is the use that the call makes of it
inductive Phase where
  | entering
  | encoding
  | attempting
  | acquiring (k j : Nat)
  | sending (k j : Nat)
  | releasing (k j : Nat) (r : Result)
  | attempted (r : Result)
  | finishing (r : Result)
  | returned (r : Result)
  deriving DecidableEq, Repr

structure Call where
  kind : Kind
  phase : Phase
  deriving DecidableEq, Repr

inductive ClosePhase where
  | entering
  | waiting
  | atPool (k : Nat)
  | draining (k j : Nat)
  | returned (r : Result)
  deriving DecidableEq, Repr

structure State (size : Nat) where
  numPools : Nat
  pools : Nat → Pool.State size
  closed : Bool
  wg : Nat
  calls : List Call
  closes : List ClosePhase
  hookDrains : Nat → List Nat

inductive CallAction where
  | enter
  | encoded
  | encodeErr
  | rateLimited
  | barrierErr
  | acquire (k : Nat)
  | acquired
  | acquireErr
  | sent (r : Result)
  | released
  | retry
  | finish
  | wgDone
  deriving DecidableEq, Repr

inductive CloseAction where
  | enter
  | wait
  | closeAll
  | drained
  deriving DecidableEq, Repr

inductive Action where
  | start (kind : Kind)
  | close
  | call (i : Nat) (a : CallAction)
  | closer (i : Nat) (a : CloseAction)
  | pool (k : Nat) (a : Pool.Action)
  | hook (k : Nat)
  deriving DecidableEq, Repr

def Precheck.result : Precheck → Option Result
  | passed => none
  | empty => some .nil
  | tooLarge => some .batchTooLarge
  | duplicate => some .duplicateID

def Kind.precheck : Kind → Option Result
  | publish => none
  | batch precheck => precheck.result

-- `acquire`, `release` and `drainFree` are called by the publisher
def ownAction : Pool.Action → Bool
  | .acquire => false
  | .call _ .release => false
  | .drain => false
  | _ => true

namespace State

variable {size : Nat}

def init (size numPools : Nat) : State size where
  numPools
  pools := fun _ => .init size
  closed := false
  wg := 0
  calls := []
  closes := []
  hookDrains := fun _ => []

def goto (s : State size) (i : Nat) (kind : Kind) (phase : Phase) : State size :=
  { s with calls := s.calls.set i ⟨kind, phase⟩ }

def closeGoto (s : State size) (i : Nat) (phase : ClosePhase) : State size :=
  { s with closes := s.closes.set i phase }

def setPool (s : State size) (k : Nat) (pool : Pool.State size) : State size :=
  { s with pools := Function.update s.pools k pool }

def poolStep (s : State size) (k : Nat) (a : Pool.Action) : Option (State size) :=
  ((s.pools k).step a).map (s.setPool k)

-- the critical section at the start of both calls, with the checks of `PublishBatch` before it
def enter (s : State size) (i : Nat) (kind : Kind) : State size :=
  match kind.precheck with
  | some r => s.goto i kind (.returned r)
  | none =>
    if s.closed then
      s.goto i kind (.returned .alreadyClosed)
    else
      { s.goto i kind .encoding with wg := s.wg + 1 }

def acquire (s : State size) (i : Nat) (kind : Kind) (k : Nat) : Option (State size) :=
  if k < s.numPools then
    (s.poolStep k .acquire).map (·.goto i kind (.acquiring k (s.pools k).calls.length))
  else
    none

def acquired (s : State size) (i : Nat) (kind : Kind) (k j : Nat) : Option (State size) :=
  match (s.pools k).calls[j]? with
  | some (.holding _ _) => some (s.goto i kind (.sending k j))
  | _ => none

def acquireErr (s : State size) (i : Nat) (kind : Kind) (k j : Nat) : Option (State size) :=
  match (s.pools k).calls[j]? with
  | some (.done r) => some (s.goto i kind (.attempted (.acquireErr r)))
  | _ => none

def sent (s : State size) (i : Nat) (kind : Kind) (k j : Nat) (r : Result) : Option (State size) :=
  (s.poolStep k (.call j .release)).map (·.goto i kind (.releasing k j r))

def released (s : State size) (i : Nat) (kind : Kind) (k j : Nat) (r : Result)
    : Option (State size) :=
  match (s.pools k).calls[j]? with
  | some (.done _) => some (s.goto i kind (.attempted r))
  | _ => none

def callStep (s : State size) (i : Nat) (a : CallAction) : Option (State size) :=
  match s.calls[i]? with
  | none => none
  | some ⟨kind, phase⟩ =>
    match a, phase with
    | .enter, .entering => some (s.enter i kind)
    | .encoded, .encoding => some (s.goto i kind .attempting)
    | .encodeErr, .encoding => some (s.goto i kind (.finishing .encodeErr))
    | .rateLimited, .attempting =>
      if kind = .publish then some (s.goto i kind (.attempted .rateLimited)) else none
    | .barrierErr, .attempting => some (s.goto i kind (.attempted .barrierErr))
    | .acquire k, .attempting => s.acquire i kind k
    | .acquired, .acquiring k j => s.acquired i kind k j
    | .acquireErr, .acquiring k j => s.acquireErr i kind k j
    | .sent r, .sending k j => s.sent i kind k j r
    | .released, .releasing k j r => s.released i kind k j r
    | .retry, .attempted r =>
      if kind = .publish ∧ r ≠ .nil then some (s.goto i kind .attempting) else none
    | .finish, .attempted r => some (s.goto i kind (.finishing r))
    | .wgDone, .finishing r => some { s.goto i kind (.returned r) with wg := s.wg - 1 }
    | _, _ => none

def closeEnter (s : State size) (i : Nat) : State size :=
  if s.closed then
    s.closeGoto i (.returned .alreadyClosed)
  else
    { s.closeGoto i .waiting with closed := true }

def closeAll (s : State size) (i k : Nat) : Option (State size) :=
  if k < s.numPools then
    (s.poolStep k .drain).map (·.closeGoto i (.draining k (s.pools k).drains.length))
  else
    some (s.closeGoto i (.returned .nil))

def closeStep (s : State size) (i : Nat) (a : CloseAction) : Option (State size) :=
  match a, s.closes[i]? with
  | .enter, some .entering => some (s.closeEnter i)
  | .wait, some .waiting => if s.wg = 0 then some (s.closeGoto i (.atPool 0)) else none
  | .closeAll, some (.atPool k) => s.closeAll i k
  | .drained, some (.draining k j) =>
    if (s.pools k).drains[j]? = some .done then some (s.closeGoto i (.atPool (k + 1))) else none
  | _, _ => none

def hook (s : State size) (k : Nat) : Option (State size) :=
  (s.poolStep k .drain).map (fun t =>
    { t with
      hookDrains := Function.update s.hookDrains k
        (s.hookDrains k ++ [(s.pools k).drains.length]) })

def step (s : State size) : Action → Option (State size)
  | .start kind => some { s with calls := s.calls ++ [⟨kind, .entering⟩] }
  | .close => some { s with closes := s.closes ++ [.entering] }
  | .call i a => s.callStep i a
  | .closer i a => s.closeStep i a
  | .pool k a => if ownAction a then s.poolStep k a else none
  | .hook k => s.hook k

end State
end Closing
