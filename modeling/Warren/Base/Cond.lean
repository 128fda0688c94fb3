/-!
Condition variables: a broadcast wakes the waiters that have drawn their tickets by then.
-/

structure Cond where
  wait : Nat
  notify : Nat
  deriving DecidableEq, Repr

namespace Cond

def make : Cond := ⟨0, 0⟩

def add (c : Cond) : Cond := { c with wait := c.wait + 1 }

def broadcast (c : Cond) : Cond := { c with notify := c.wait }

def woken (c : Cond) (ticket : Nat) : Bool := ticket < c.notify

theorem woken_broadcast {c : Cond} {ticket : Nat} (h : ticket < c.wait)
    : c.broadcast.woken ticket = true := by
  simp [woken, broadcast, h]

end Cond
