import Mathlib.Logic.Function.Basic
import Warren.Connection.Barrier.Impl

/-!
`Topology.AttachTo` (`topology.go`). The first call on a connection registers the redeclare hook on
every socket; each call files a snapshot of its topology, which is a number here.
-/

namespace Topology

structure Registry where
  topoKeys : List Nat
  topoSnaps : Nat → Option Nat
  topoHooked : Bool

namespace Registry

def empty : Registry := ⟨[], fun _ => none, false⟩

-- `snapshot` is none for a topology that is not valid, the flag says if hooks are to be registered
def attachTo (r : Registry) (t : Nat) (snapshot : Option Nat) : Registry × Bool :=
  match snapshot with
  | none => (r, false)
  | some snapshot =>
    ({ topoKeys := if (r.topoSnaps t).isSome then r.topoKeys else r.topoKeys ++ [t]
       topoSnaps := Function.update r.topoSnaps t (some snapshot)
       topoHooked := true },
      !r.topoHooked)

end Registry

/-!
One socket with the hooks of its connection. `AttachTo` registers its hook after it has released
`topoMu`.
-/

-- the other hooks that are not of a consumer have other numbers
def redeclareHook : Barrier.Hook := .other 0

structure Attached where
  registry : Registry
  registering : Bool
  mc : Barrier.State

namespace Attached

inductive Action where
  | attachTo (t : Nat) (snapshot : Option Nat)
  | registerHook
  | mc (a : Barrier.Action)
  deriving DecidableEq, Repr

def init : Attached := ⟨.empty, false, .init⟩

def attachTo (s : Attached) (t : Nat) (snapshot : Option Nat) : Attached :=
  let r := s.registry.attachTo t snapshot
  { s with registry := r.1, registering := s.registering || r.2 }

def registerHook (s : Attached) : Attached :=
  { s with registering := false, mc := { s.mc with hooks := s.mc.hooks ++ [redeclareHook] } }

def mcStep (s : Attached) (a : Barrier.Action) : Option Attached :=
  if a = .super (.registerHook 0) then none else (s.mc.step a).map ({ s with mc := · })

def step (s : Attached) : Action → Option Attached
  | .attachTo t snapshot => some (s.attachTo t snapshot)
  | .registerHook => if s.registering then some s.registerHook else none
  | .mc a => s.mcStep a

end Attached
end Topology
