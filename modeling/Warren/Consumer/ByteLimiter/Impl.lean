import Warren.Base.Cond

/-!
`byteLimiter` and its use in `runConsume` (`consumer.go`). A critical section of `bl.mu` is one
step. The steps allow any number of deliveries before their launch.
-/

namespace ByteLimiter

structure Limiter where
  limit : Int
  inflight : Int
  cond : Cond
  deriving DecidableEq, Repr

def newByteLimiter (limit : Int) : Option Limiter :=
  if limit ≤ 0 then none else some { limit, inflight := 0, cond := .make }

-- how `dispatch` ends; the deferred calls of its goroutine run after each of them
inductive End where
  | returned
  | panicked
  | goexit
  deriving DecidableEq, Repr

inductive Phase where
  | acquiring
  | asleep (ticket : Nat)
  | granted
  | dispatching
  | ended (e : End)
  | releasing (e : End)
  | done (e : End)
  deriving DecidableEq, Repr

structure Delivery where
  size : Nat
  phase : Phase
  releases : Nat
  deriving DecidableEq, Repr

inductive Move where
  | acquire
  | wake
  | launch
  | finish (e : End)
  | release
  | broadcast
  deriving DecidableEq, Repr

def Limiter.acquire (bl : Limiter) (n : Nat) : Limiter × Phase :=
  if 0 < bl.inflight ∧ bl.limit < bl.inflight + n then
    ({ bl with cond := bl.cond.add }, .asleep bl.cond.wait)
  else
    ({ bl with inflight := bl.inflight + n }, .granted)

def Delivery.move (bl : Limiter) (d : Delivery) (a : Move) : Option (Limiter × Delivery) :=
  match a, d.phase with
  | .acquire, .acquiring => some ((bl.acquire d.size).1, { d with phase := (bl.acquire d.size).2 })
  | .wake, .asleep ticket =>
    if bl.cond.woken ticket then some (bl, { d with phase := .acquiring }) else none
  | .launch, .granted => some (bl, { d with phase := .dispatching })
  | .finish e, .dispatching => some (bl, { d with phase := .ended e })
  | .release, .ended e =>
    some ({ bl with inflight := bl.inflight - d.size },
      { d with phase := .releasing e, releases := d.releases + 1 })
  | .broadcast, .releasing e =>
    some ({ bl with cond := bl.cond.broadcast }, { d with phase := .done e })
  | _, _ => none

structure State where
  bl : Limiter
  deliveries : List Delivery
  deriving DecidableEq, Repr

inductive Action where
  | receive (size : Nat)
  | move (i : Nat) (a : Move)
  deriving DecidableEq, Repr

def State.step (s : State) : Action → Option State
  | .receive size => some { s with deliveries := s.deliveries ++ [⟨size, .acquiring, 0⟩] }
  | .move i a =>
    match s.deliveries[i]? with
    | none => none
    | some d =>
      (d.move s.bl a).map (fun (bl, d) => { bl, deliveries := s.deliveries.set i d })

end ByteLimiter
