import Warren.Topology.Impl

/-!
`ensureTopologyRedeclare` and `runTopologyRedeclare` (`topology.go`), called by the barriers of all
sockets of a connection. Each critical section of `topoRedeclareMu` is one step; a run is known by
its wait channel. What the runs have declared and what a call knew is kept for the statements only.
-/

namespace Topology

open Function

-- the snapshots in the order of their registration, with their keys
def Registry.registered (r : Registry) : List (Nat × Nat) :=
  r.topoKeys.filterMap (fun t => (r.topoSnaps t).map (fun snapshot => (t, snapshot)))

namespace Redeclare

-- in milliseconds
def topoRedeclareCoalesceWindow : Nat := 10000

inductive Err where
  | ctx
  | openChannel
  | declare
  deriving DecidableEq, Repr

inductive Result where
  | coalesced (run : Nat)
  | ran (run : Nat) (err : Option Err)
  | ctx
  deriving DecidableEq, Repr

def Result.err : Result → Option Err
  | .coalesced _ => none
  | .ran _ err => err
  | .ctx => some .ctx

-- `snapshotting`, `declaring` and `finishing` are the phases of the call that owns a run
inductive Phase where
  | idle
  | locking
  | waiting (wait : Nat)
  | snapshotting (wait : Nat)
  | declaring (wait : Nat) (rest : List (Nat × Nat))
  | finishing (wait : Nat) (err : Option Err)
  | returned (result : Result)
  deriving DecidableEq, Repr

structure Call where
  ctxDone : Bool
  phase : Phase
  waited : List Nat
  loss : Nat
  registered : List (Nat × Nat)
  deriving DecidableEq, Repr

structure LastDeclare where
  time : Nat
  run : Nat
  deriving DecidableEq, Repr

structure State where
  now : Nat
  registry : Registry
  topoLastDeclare : Option LastDeclare
  topoRedeclareWait : Option Nat
  waitClosed : Nat → Bool
  nextWait : Nat
  calls : Nat → Call
  nextCall : Nat
  outcome : Nat → Option (Option Err)
  declared : List (Nat × Nat × Nat)
  losses : Nat
  -- the number of the last loss of a socket, and the losses before a run started
  lossOf : Nat → Nat
  lossesBefore : Nat → Nat

inductive CallAction where
  | lock
  | waitClosed
  | waitCtx
  | snapshot
  | declare (err : Option Err)
  | finish
  deriving DecidableEq, Repr

inductive Action where
  | attachTo (t : Nat) (snapshot : Option Nat)
  | lose (mc : Nat)
  | enter (mc : Nat)
  | call (i : Nat) (a : CallAction)
  | cancel (i : Nat)
  | advance (ms : Nat)
  deriving DecidableEq, Repr

namespace State

def init : State where
  now := 0
  registry := .empty
  topoLastDeclare := none
  topoRedeclareWait := none
  waitClosed := fun _ => false
  nextWait := 0
  calls := fun _ => ⟨false, .idle, [], 0, []⟩
  nextCall := 0
  outcome := fun _ => none
  declared := []
  losses := 0
  lossOf := fun _ => 0
  lossesBefore := fun _ => 0

def setCall (s : State) (i : Nat) (c : Call) : State :=
  { s with calls := update s.calls i c }

def goto (s : State) (i : Nat) (phase : Phase) : State :=
  s.setCall i { s.calls i with phase }

def recent (s : State) : Option Nat :=
  match s.topoLastDeclare with
  | none => none
  | some last => if s.now - last.time < topoRedeclareCoalesceWindow then some last.run else none

def startRun (s : State) (i : Nat) : State :=
  { s.goto i (.snapshotting s.nextWait) with
    topoRedeclareWait := some s.nextWait
    nextWait := s.nextWait + 1
    lossesBefore := update s.lossesBefore s.nextWait s.losses }

def lock (s : State) (i : Nat) : State :=
  match s.recent, s.topoRedeclareWait with
  | some run, _ => s.goto i (.returned (.coalesced run))
  | none, some wait =>
    s.setCall i { s.calls i with
      phase := .waiting wait, waited := (s.calls i).waited ++ [wait] }
  | none, none => s.startRun i

-- one round of the loop in `runTopologyRedeclare`; `err` is what the channel or the broker answers
def declare (s : State) (i wait : Nat) (rest : List (Nat × Nat)) (err : Option Err) : State :=
  match rest with
  | [] => s.goto i (.finishing wait none)
  | (t, snapshot) :: rest =>
    if (s.calls i).ctxDone then
      s.goto i (.finishing wait (some .ctx))
    else
      match err with
      | some err => s.goto i (.finishing wait (some err))
      | none =>
        { s.goto i (.declaring wait rest) with declared := s.declared ++ [(wait, t, snapshot)] }

def finish (s : State) (i wait : Nat) (err : Option Err) : State :=
  { s.goto i (.returned (.ran wait err)) with
    topoLastDeclare := if err = none then some ⟨s.now, wait⟩ else s.topoLastDeclare
    topoRedeclareWait := none
    waitClosed := update s.waitClosed wait true
    outcome := update s.outcome wait (some err) }

def callStep (s : State) (i : Nat) (a : CallAction) : Option State :=
  match a, (s.calls i).phase with
  | .lock, .locking => some (s.lock i)
  | .waitClosed, .waiting wait => if s.waitClosed wait then some (s.goto i .locking) else none
  | .waitCtx, .waiting _ =>
    if (s.calls i).ctxDone then some (s.goto i (.returned .ctx)) else none
  | .snapshot, .snapshotting wait => some (s.goto i (.declaring wait s.registry.registered))
  | .declare err, .declaring wait rest => some (s.declare i wait rest err)
  | .finish, .finishing wait err => some (s.finish i wait err)
  | _, _ => none

-- the barrier of a socket calls the hook; the call is `s.nextCall`
def enter (s : State) (mc : Nat) : State :=
  { s.setCall s.nextCall ⟨false, .locking, [], s.lossOf mc, s.registry.registered⟩ with
    nextCall := s.nextCall + 1 }

def lose (s : State) (mc : Nat) : State :=
  { s with losses := s.losses + 1, lossOf := update s.lossOf mc (s.losses + 1) }

def step (s : State) : Action → Option State
  | .attachTo t snapshot => some { s with registry := (s.registry.attachTo t snapshot).1 }
  | .lose mc => some (s.lose mc)
  | .enter mc => some (s.enter mc)
  | .call i a => s.callStep i a
  | .cancel i => some (s.setCall i { s.calls i with ctxDone := true })
  | .advance ms => some { s with now := s.now + ms }

end State
end Redeclare
end Topology
